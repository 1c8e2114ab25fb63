import ContentSchema.Proofs.Number.Shortest
import ContentSchema.Proofs.Schema.Regular
import ContentSchema.Proofs.Schema.Spelling

/-!
# Numbers read from their literals

What the reader of defaults makes of the literal of a number.  A whole number is read as itself
unless it is too long, a double in positional notation is read as a double, and one that shows a
letter as a text.  A double that is not whole is written in positional notation exactly from `1e-4`
on (`Double.pointed_or_letter`).
-/

namespace ContentSchema

open Text

/-! ### Doubles that are not whole -/

namespace Double

variable {x : Double} {m : Nat} {q : Int}

/-- The absolute value of a finite double. -/
def size? (x : Double) : Option ℚ :=
  match x.view with
  | .finite m q => some (Decimal.binary m q)
  | _ => none

/-- Above the least exponent the mantissa has all its bits. -/
theorem view_normal (h : x.view = .finite m q) (hq : -1074 < q) : 2 ^ 52 ≤ m := by
  rw [view] at h
  split at h
  · split at h <;> cases h
  · split at h
    · cases h
      omega
    · cases h
      exact Nat.le_add_right _ _

/-- A finite double that is not whole has a negative exponent. -/
theorem of_toInt?_eq_none (h : x.view = .finite m q) (hx : x.toInt? = none) : q < 0 ∧ 0 < m := by
  rw [toInt?, h] at hx
  simp only [Option.map_eq_none_iff] at hx
  split at hx
  · cases hx
  · rename_i hq
    refine ⟨Int.not_le.1 hq, Nat.pos_of_ne_zero ?_⟩
    rintro rfl
    rw [Nat.zero_mod, if_pos rfl] at hx
    cases hx

end Double

/-- Digits, a point, and digits. -/
def Pointed (cs : List Char) : Prop :=
  ∃ ds es, cs = ds ++ '.' :: es ∧ ds ≠ [] ∧ es ≠ [] ∧ ∀ c ∈ ds ++ es, c.isDigit = true

theorem Pointed.head?_ne {cs : List Char} (h : Pointed cs) : cs.head? ≠ some '-' := by
  obtain ⟨ds, es, rfl, hne, -, hdigits⟩ := h
  obtain ⟨d, ds, rfl⟩ := List.exists_cons_of_ne_nil hne
  intro hhead
  have hd := hdigits d List.mem_cons_self
  obtain rfl : d = '-' := by simpa using hhead
  cases hd

theorem isDigit_of_mem_digitsText {n : Nat} : ∀ c ∈ Decimal.digitsText n, c.isDigit = true :=
  fun _ hc => Nat.isDigit_of_mem_toDigits (by decide) (by decide) hc

theorem digitsText_ne_nil (n : Nat) : Decimal.digitsText n ≠ [] :=
  List.ne_nil_of_length_pos Nat.length_toDigits_pos

theorem Decimal.pointed_positional {ds : List Char} (hne : ds ≠ [])
    (hds : ∀ c ∈ ds, c.isDigit = true) (order : Int) : Pointed (positional ds order true) := by
  have hzeros : ∀ n, ∀ c ∈ List.replicate n '0', c.isDigit = true := by
    intro n c hc
    rw [List.eq_of_mem_replicate hc]
    decide
  rw [positional]
  split
  · refine ⟨['0'], List.replicate (-order - 1).toNat '0' ++ ds, rfl, by simp, by simp [hne], ?_⟩
    intro c hc
    rcases List.mem_append.1 hc with hc | hc
    · rw [List.mem_singleton.1 hc]
      decide
    · exact (List.mem_append.1 hc).elim (hzeros _ c) (hds c)
  · dsimp only
    split
    · refine ⟨ds ++ List.replicate (order.toNat + 1 - ds.length) '0', ['0'], rfl, by simp [hne],
        by simp, fun c hc => ?_⟩
      rcases List.mem_append.1 hc with hc | hc
      · exact (List.mem_append.1 hc).elim (hds c) (hzeros _ c)
      · rw [List.mem_singleton.1 hc]
        decide
    · rename_i hlong
      refine ⟨ds.take (order.toNat + 1), ds.drop (order.toNat + 1), rfl, by simp [hne], ?_, ?_⟩
      · rw [ne_eq, List.drop_eq_nil_iff]
        exact hlong
      · rwa [List.take_append_drop]

/-- A double that is not whole is written in positional notation from `1e-4` on, and with a letter
if it is smaller, infinite or no number. -/
theorem Double.pointed_or_letter {x : Double} (hx : x.toInt? = none) :
    ((∃ y, x.size? = some y ∧ 1 / 10000 ≤ y) ∧ Pointed x.magnitudeText) ∨
      ((¬ ∃ y, x.size? = some y ∧ 1 / 10000 ≤ y) ∧ ∃ c ∈ x.magnitudeText, c ∈ ['e', 'n']) := by
  rw [size?, magnitudeText]
  cases hview : x.view with
  | nan => exact Or.inr ⟨by rintro ⟨y, ⟨⟩, -⟩, 'n', by decide, by decide⟩
  | infinite => exact Or.inr ⟨by rintro ⟨y, ⟨⟩, -⟩, 'n', by decide, by decide⟩
  | finite m q =>
    obtain ⟨hq, hm⟩ := of_toInt?_eq_none hview hx
    have hm' := (view_bounds hview).1
    have hlow := Decimal.neg_four_le_order_iff hm hm' (view_normal hview)
    have hhigh := Decimal.order_lt_sixteen hm hm' hq
    dsimp only
    rw [if_neg hm.ne', Decimal.plainText]
    by_cases hsize : 1 / 10000 ≤ Decimal.binary m q
    · refine Or.inl ⟨⟨_, rfl, hsize⟩, ?_⟩
      rw [if_pos ⟨hlow.2 hsize, hhigh⟩]
      exact Decimal.pointed_positional (digitsText_ne_nil _) isDigit_of_mem_digitsText _
    · refine Or.inr ⟨?_, 'e', ?_, by decide⟩
      · rintro ⟨y, ⟨⟩, hy⟩
        exact hsize hy
      · rw [if_neg fun h => hsize (hlow.1 h.1)]
        exact e_mem_scientific _ _ _

/-! ### Reading -/

namespace Attribute

variable {cs value : List Char}

/-- The letters of truth values do not occur in numbers. -/
theorem ne_of_numeral (h : Numeral cs) : cs ≠ "true".toList ∧ cs ≠ "false".toList := by
  constructor
  · rintro rfl
    exact h.not_mem (c := 't') (by decide) (by decide)
  · rintro rfl
    exact h.not_mem (c := 's') (by decide) (by decide)

theorem naturalOf?_of_digits (h : ∀ c ∈ cs, c.isDigit = true) :
    naturalOf? cs = some (Nat.ofDigitChars 10 cs 0) := by
  have hfold : ∀ n, cs.foldl (fun acc c => acc.bind fun n => (digitValue? c).map (n * 10 + ·))
      (some n) = some (Nat.ofDigitChars 10 cs n) := by
    induction cs with
    | nil => exact fun n => rfl
    | cons c cs ih =>
      intro n
      obtain ⟨hc, hcs⟩ := List.forall_mem_cons.1 h
      have hstep : ((some n).bind fun n => (digitValue? c).map (n * 10 + ·)) =
          some (10 * n + (c.toNat - '0'.toNat)) := by
        rw [Option.bind_some, digitValue?, if_pos hc, Option.map_some, Nat.mul_comm]
        rfl
      rw [List.foldl_cons, hstep, ih hcs]
      rfl
  exact hfold 0

theorem isDigits_of_digits (hne : cs ≠ []) (h : ∀ c ∈ cs, c.isDigit = true) :
    isDigits cs = true := by
  rw [isDigits, Bool.and_eq_true, List.all_eq_true]
  exact ⟨by simpa using hne, fun c hc => isDecimal_of_isDigit (h c hc)⟩

/-- A whole number is read as it was written. -/
theorem literalValue_intText {n : Int} (h : isOversized n = false) :
    literalValue (intText n) = .ok (.int n) := by
  obtain ⟨htrue, hfalse⟩ := ne_of_numeral (numeral_intText n)
  have hminus : takeMinus (intText n) = (decide (n < 0), Decimal.digitsText n.natAbs) := by
    rw [intText]
    split
    · rename_i hn
      rw [decide_eq_true hn]
      rfl
    · rename_i hn
      rw [takeMinus_of_head? (head?_digitsText _), decide_eq_false hn]
  have hdigits := isDigits_of_digits (digitsText_ne_nil n.natAbs) isDigit_of_mem_digitsText
  have hnatural : naturalOf? (Decimal.digitsText n.natAbs) = some n.natAbs := by
    rw [naturalOf?_of_digits isDigit_of_mem_digitsText]
    exact congrArg some Nat.ofDigitChars_ten_toDigits
  rw [isOversized, decide_eq_false_iff_not] at h
  rw [literalValue, if_neg htrue, if_neg hfalse, hminus]
  dsimp only
  rw [if_pos hdigits, if_neg h, hnatural, Option.getD_some]
  refine congrArg (fun k => Except.ok (ColumnDefault.int k)) ?_
  by_cases hn : n < 0
  · rw [decide_eq_true hn, if_pos rfl]
    omega
  · rw [decide_eq_false hn, if_neg Bool.false_ne_true]
    omega

/-- Digits with a point among them are read as a double. -/
theorem literalValue_of_pointed (h : Pointed (takeMinus value).2) :
    ∃ x, literalValue value = .ok (.float x) := by
  obtain ⟨ds, es, hparts, hds, hes, hdigits⟩ := h
  have hne : ∀ word : List Char, '.' ∉ word → '-' ∉ word → value ≠ word := by
    rintro word hpoint hminus rfl
    rw [takeMinus_of_head? fun hhead => hminus (List.mem_of_mem_head? hhead)] at hparts
    have hvalue : value = ds ++ '.' :: es := hparts
    exact hpoint (hvalue ▸ List.mem_append_right _ List.mem_cons_self)
  have hall : ∀ c ∈ ds, decide (c ≠ '.') = true := by
    intro c hc
    rw [decide_eq_true_iff]
    rintro rfl
    exact absurd (hdigits _ (List.mem_append_left _ hc)) (by decide)
  have hrow : isDigits (takeMinus value).2 = false := by
    rw [hparts, isDigits, Bool.and_eq_false_iff, List.all_eq_false]
    exact Or.inr ⟨'.', by simp, by decide +kernel⟩
  have hwhole : (takeMinus value).2.span (· ≠ '.') = (ds, '.' :: es) := by
    rw [hparts, List.span_eq_takeWhile_dropWhile, List.takeWhile_append_of_pos hall,
      List.dropWhile_append_of_pos hall]
    simp
  rw [literalValue, if_neg (hne _ (by decide) (by decide)), if_neg (hne _ (by decide) (by decide))]
  generalize takeMinus value = parts at hrow hwhole
  obtain ⟨negative, digits⟩ := parts
  dsimp only at hrow hwhole ⊢
  rw [hrow, hwhole]
  dsimp only
  rw [isDigits_of_digits hds fun c hc => hdigits c (List.mem_append_left _ hc), List.tail_cons,
    isDigits_of_digits hes fun c hc => hdigits c (List.mem_append_right _ hc)]
  exact ⟨_, rfl⟩

/-- A number that shows a letter is read as a text. -/
theorem literalValue_of_letter (hnumeral : Numeral value) {c : Char} (hc : c ∈ (takeMinus value).2)
    (hletter : c ∈ ['e', 'n']) : ∃ s, literalValue value = .ok (.text s) := by
  obtain ⟨htrue, hfalse⟩ := ne_of_numeral hnumeral
  have hno : ∀ c ∈ ['e', 'n'], isDecimal c = false ∧ c ≠ '.' := by decide +kernel
  obtain ⟨hdecimal, hpoint⟩ := hno c hletter
  have hrow : ∀ {cs}, c ∈ cs → isDigits cs = false := by
    intro cs hmem
    rw [isDigits, Bool.and_eq_false_iff, List.all_eq_false]
    exact Or.inr ⟨c, hmem, by simp [hdecimal]⟩
  refine ⟨_, literalValue_of_text htrue hfalse (hrow hc) ?_⟩
  have hsplit := List.takeWhile_append_dropWhile (p := (· ≠ '.')) (l := (takeMinus value).2)
  rw [← hsplit, List.mem_append] at hc
  rcases hc with hc | hc
  · exact Or.inl (hrow hc)
  · refine Or.inr (hrow ?_)
    -- behind the point, as it is not the point itself
    have hhead := List.head?_dropWhile_not (· ≠ '.') (takeMinus value).2
    cases hrest : (takeMinus value).2.dropWhile (· ≠ '.') with
    | nil =>
      rw [hrest] at hc
      cases hc
    | cons d rest =>
      rw [hrest] at hc hhead
      have hd : d = '.' := by simpa using hhead
      exact (List.mem_cons.1 hc).resolve_left fun heq => hpoint (heq.trans hd)

/-- A double that is whole is read as a whole number. -/
theorem literalValue_doubleLiteral_of_whole {x : Double} {n : Int} (hx : x.toInt? = some n) :
    literalValue (doubleLiteral x) = .ok (.int n) := by
  have hsize : isOversized n = false := by
    rw [isOversized, decide_eq_false_iff_not, Nat.not_lt]
    exact digits_length_of_toInt? hx
  rw [doubleLiteral, hx]
  exact literalValue_intText hsize

/-- A double that is not whole is read as a double if it is finite and reaches `1e-4`, and as a text
if not. -/
theorem literalValue_doubleLiteral {x : Double} (hx : x.toInt? = none) :
    ((∃ y, x.size? = some y ∧ 1 / 10000 ≤ y) ∧
        ∃ z, literalValue (doubleLiteral x) = .ok (.float z)) ∨
      (¬ ∃ y, x.size? = some y ∧ 1 / 10000 ≤ y) ∧
        ∃ s, literalValue (doubleLiteral x) = .ok (.text s) := by
  have hliteral : doubleLiteral x = x.text := by rw [doubleLiteral, hx]
  rw [hliteral]
  rcases Double.pointed_or_letter hx with ⟨hsize, hpointed⟩ | ⟨hsize, c, hc, hletter⟩
  · refine Or.inl ⟨hsize, literalValue_of_pointed ?_⟩
    rcases x.text_eq with htext | htext
    · rwa [htext, takeMinus_of_head? hpointed.head?_ne]
    · rwa [htext]
  · refine Or.inr ⟨hsize,
      literalValue_of_letter (numeral_text x) (mem_takeMinus_text hc ?_) hletter⟩
    rintro rfl
    exact absurd hletter (by decide)

end Attribute

/-! ### Defaults -/

namespace ColumnDefault

variable {d : ColumnDefault} {t : ScalarType}

/-- Whether the value is one of a scalar type; whole numbers are also floats. -/
def isOf : ColumnDefault → ScalarType → Bool
  | .bool _, .boolean => true
  | .int _, .int => true
  | .int _, .float => true
  | .float _, .float => true
  | .text _, .string => true
  | _, _ => false

/-- Truth values are plain, whole numbers if they are not too long, doubles if they are whole, and
for floats also if they reach `1e-4` and are finite. -/
def Plain (t : ScalarType) : ColumnDefault → Prop
  | .bool _ => True
  | .int n => ContentSchema.isOversized n = false
  | .float x => x.toInt? ≠ none ∨ t = .float ∧ ∃ y, x.size? = some y ∧ 1 / 10000 ≤ y
  | .text _ => False

theorem literal_ne_nil (d : ColumnDefault) : d.literal ≠ [] := by
  have hint : ∀ n, intText n ≠ [] := by
    intro n
    rw [intText]
    split
    · simp
    · exact digitsText_ne_nil _
  cases d with
  | bool b => cases b <;> decide
  | int n => exact hint n
  | float x =>
    rw [literal, doubleLiteral]
    split
    · exact hint _
    · obtain ⟨c, hc, -⟩ := exists_mark_magnitudeText x
      rcases x.text_eq with h | h
      · rw [h]
        exact List.ne_nil_of_mem hc
      · rw [h]
        simp
  | text s => simp [literal, quoted]

/-- The attribute of a default that is no text is read as its literal. -/
theorem defaultValue?_defaultAttribute (hd : ∀ s, d ≠ .text s) :
    Attribute.defaultValue? (Column.defaultAttribute d) =
      some <$> Attribute.literalValue d.literal := by
  have hsolid := Column.solid_literal hd
  have hbody := Column.defaultBody?_defaultAttribute d
  rw [if_neg] at hbody
  · rw [Attribute.defaultValue?, hbody]
    dsimp only
    rw [strip_of_solid hsolid]
  · rw [Bool.or_eq_true, decide_eq_true_iff, List.isEmpty_iff]
    rintro (hnil | hmem)
    · exact d.literal_ne_nil hnil
    · have hblank := hsolid _ hmem
      cases hblank

/-- What a literal is read as decides whether the default is read as a value of a type. -/
theorem exists_defaultValue?_iff_isOf (hd : ∀ s, d ≠ .text s) {v : ColumnDefault}
    (hv : Attribute.literalValue d.literal = .ok v) :
    (∃ v, Attribute.defaultValue? (Column.defaultAttribute d) = .ok (some v) ∧ v.isOf t = true) ↔
      v.isOf t = true := by
  rw [defaultValue?_defaultAttribute hd, hv]
  constructor
  · rintro ⟨_, ⟨⟩, hof⟩
    exact hof
  · exact fun hof => ⟨v, rfl, hof⟩

theorem ofNum_ne_text (n : Num) : ∀ s, ofNum n ≠ .text s := by
  cases n <;> simp [ofNum]

/-- A whole number is read as a number unless it is too long. -/
theorem exists_defaultValue?_int_iff (ht : t = .int ∨ t = .float) (n : Int) :
    (∃ v, Attribute.defaultValue? (Column.defaultAttribute (.int n)) = .ok (some v) ∧
      v.isOf t = true) ↔ Plain t (.int n) := by
  rw [Plain]
  cases hsize : ContentSchema.isOversized n with
  | false =>
    rw [exists_defaultValue?_iff_isOf (d := .int n) (ofNum_ne_text (.int n))
      (Attribute.literalValue_intText hsize)]
    rcases ht with rfl | rfl <;> exact ⟨fun _ => rfl, fun _ => rfl⟩
  | true =>
    have hlong : Attribute.isDigits (Attribute.takeMinus (intText n)).2 = true ∧
        maxDigits < (Attribute.takeMinus (intText n)).2.length := by
      rw [takeMinus_intText]
      exact ⟨Attribute.isDigits_of_digits (digitsText_ne_nil _) isDigit_of_mem_digitsText,
        by simpa [ContentSchema.isOversized] using hsize⟩
    obtain ⟨e, he⟩ := Attribute.literalValue_eq_error_iff.2 hlong
    rw [defaultValue?_defaultAttribute (d := .int n) (ofNum_ne_text (.int n)), literal, he]
    simp

/-- A double is read as a number of the type if it is whole, or if the type is that of floats and
the double is written without an exponent. -/
theorem exists_defaultValue?_float_iff (ht : t = .int ∨ t = .float) (x : Double) :
    (∃ v, Attribute.defaultValue? (Column.defaultAttribute (.float x)) = .ok (some v) ∧
      v.isOf t = true) ↔ Plain t (.float x) := by
  rw [Plain]
  cases hx : x.toInt? with
  | some n =>
    rw [exists_defaultValue?_iff_isOf (d := .float x) (ofNum_ne_text (.float x))
      (Attribute.literalValue_doubleLiteral_of_whole hx)]
    rcases ht with rfl | rfl <;> exact ⟨fun _ => Or.inl (Option.some_ne_none n), fun _ => rfl⟩
  | none =>
    rcases Attribute.literalValue_doubleLiteral hx with ⟨hsize, z, hz⟩ | ⟨hsize, s, hs⟩
    · rw [exists_defaultValue?_iff_isOf (d := .float x) (ofNum_ne_text (.float x)) hz]
      constructor
      · intro hof
        rcases ht with rfl | rfl
        · cases hof
        · exact Or.inr ⟨rfl, hsize⟩
      · rintro (hne | ⟨rfl, -⟩)
        · exact absurd rfl hne
        · rfl
    · rw [exists_defaultValue?_iff_isOf (d := .float x) (ofNum_ne_text (.float x)) hs]
      constructor
      · intro hof
        rcases ht with rfl | rfl <;> cases hof
      · rintro (hne | ⟨-, hsize'⟩)
        · exact absurd rfl hne
        · exact absurd hsize' hsize

/-- A truth value or number is read as a value of its column's type exactly if it is plain. -/
theorem exists_defaultValue?_iff (hd : (∃ b, d = .bool b ∧ t = .boolean) ∨
      ∃ n, d = .ofNum n ∧ (t = .int ∨ t = .float)) :
    (∃ v, Attribute.defaultValue? (Column.defaultAttribute d) = .ok (some v) ∧ v.isOf t = true) ↔
      d.Plain t := by
  rcases hd with ⟨b, rfl, rfl⟩ | ⟨n, rfl, ht⟩
  · have hb : Attribute.literalValue (literal (.bool b)) = .ok (.bool b) := by cases b <;> rfl
    rw [exists_defaultValue?_iff_isOf (d := .bool b) nofun hb]
    exact ⟨fun _ => trivial, fun _ => rfl⟩
  · cases n with
    | int n => exact exists_defaultValue?_int_iff ht n
    | float x => exact exists_defaultValue?_float_iff ht x

end ColumnDefault

end ContentSchema
