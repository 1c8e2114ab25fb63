import ContentSchema.Schema.Attribute
import ContentSchema.Schema.Printer
import ContentSchema.Proofs.Text.Lines
import Mathlib.Tactic.Positivity

/-!
# Characters of numbers

What the text of a number can hold: digits, a point, signs, an exponent and the letters of `inf` and
`nan`.  The text of a double is never a row of digits (`exists_nondigit_text`), and a double that
is whole is too small to have many (`digits_length_of_toInt?`).
-/

namespace ContentSchema

open Text

/-- Characters that occur in the texts of numbers. -/
def isNumeralChar (c : Char) : Bool := c.isDigit || "+-.einfa".toList.contains c

/-- All characters of the text occur in the texts of numbers. -/
def Numeral (cs : List Char) : Prop := ∀ c ∈ cs, isNumeralChar c = true

variable {cs ds : List Char}

instance : Decidable (Numeral cs) := inferInstanceAs (Decidable (∀ c ∈ cs, isNumeralChar c = true))

@[simp] theorem numeral_nil : Numeral [] := by simp [Numeral]

@[simp] theorem numeral_cons {c : Char} :
    Numeral (c :: cs) ↔ isNumeralChar c = true ∧ Numeral cs := by
  simp [Numeral]

@[simp] theorem numeral_append : Numeral (cs ++ ds) ↔ Numeral cs ∧ Numeral ds := by
  simp only [Numeral, List.mem_append]
  constructor
  · intro h
    exact ⟨fun c hc => h c (Or.inl hc), fun c hc => h c (Or.inr hc)⟩
  · rintro ⟨hcs, hds⟩ c (hc | hc)
    · exact hcs c hc
    · exact hds c hc

theorem Numeral.of_subset (h : Numeral ds) (hsub : cs ⊆ ds) : Numeral cs :=
  fun c hc => h c (hsub hc)

theorem numeral_replicate (n : Nat) {c : Char} (hc : isNumeralChar c = true) :
    Numeral (List.replicate n c) := by
  intro d hd
  rw [List.eq_of_mem_replicate hd]
  exact hc

/-- A character of a number is a digit or one of eight others. -/
theorem isNumeralChar_iff {c : Char} :
    isNumeralChar c = true ↔
      (48 ≤ c.toNat ∧ c.toNat ≤ 57) ∨ c ∈ ['+', '-', '.', 'e', 'i', 'n', 'f', 'a'] := by
  simp [isNumeralChar, Char.isDigit, UInt32.le_iff_toNat_le]

/-- No character of a number is a blank. -/
theorem isBlank_of_isNumeralChar {c : Char} (h : isNumeralChar c = true) : isBlank c = false := by
  rcases isNumeralChar_iff.1 h with hd | hmem
  · simp only [isBlank, Bool.or_eq_false_iff, Bool.and_eq_false_iff, decide_eq_false_iff_not,
      beq_eq_false_iff_ne]
    omega
  · have hall : ∀ d ∈ ['+', '-', '.', 'e', 'i', 'n', 'f', 'a'], isBlank d = false := by decide
    exact hall c hmem

theorem Numeral.solid (h : Numeral cs) : Solid cs := fun c hc => isBlank_of_isNumeralChar (h c hc)

theorem Numeral.not_mem (h : Numeral cs) {c : Char} (hc : isNumeralChar c = false) : c ∉ cs := by
  intro hmem
  rw [h c hmem] at hc
  exact Bool.false_ne_true hc.symm

/-! ### Whole numbers -/

theorem numeral_digitsText (n : Nat) : Numeral (Decimal.digitsText n) := by
  intro c hc
  simp [isNumeralChar, Nat.isDigit_of_mem_toDigits (by decide) (by decide) hc]

theorem numeral_intText (n : Int) : Numeral (intText n) := by
  rw [intText]
  split
  · exact numeral_cons.2 ⟨by decide, numeral_digitsText _⟩
  · exact numeral_digitsText _

theorem head?_digitsText (n : Nat) : (Decimal.digitsText n).head? ≠ some '-' := by
  intro h
  have := Nat.isDigit_of_mem_toDigits (by decide) (by decide) (List.mem_of_mem_head? h)
  revert this
  decide

theorem takeMinus_of_head? (h : cs.head? ≠ some '-') : Attribute.takeMinus cs = (false, cs) := by
  cases cs with
  | nil => rfl
  | cons c cs =>
    rw [Attribute.takeMinus]
    rintro _ ⟨⟩
    exact h rfl

/-- The digits behind the sign of a whole number. -/
theorem takeMinus_intText (n : Int) :
    (Attribute.takeMinus (intText n)).2 = Decimal.digitsText n.natAbs := by
  rw [intText]
  split
  · rfl
  · rw [takeMinus_of_head? (head?_digitsText _)]

/-! ### Doubles -/

theorem numeral_positional (h : Numeral ds) (order : Int) (mark : Bool) :
    Numeral (Decimal.positional ds order mark) := by
  have hzero : isNumeralChar '0' = true := by decide
  have hpoint : isNumeralChar '.' = true := by decide
  rw [Decimal.positional]
  split
  · simp [hzero, hpoint, h, numeral_replicate]
  · dsimp only
    split
    · cases mark <;> simp [hzero, hpoint, h, numeral_replicate]
    · simp [hpoint, h.of_subset (List.take_subset _ _), h.of_subset (List.drop_subset _ _)]

theorem numeral_scientific (h : Numeral ds) (order : Int) (width : Nat) :
    Numeral (Decimal.scientific ds order width) := by
  have hpower : Numeral ('e' :: (if order < 0 then '-' else '+') ::
      List.replicate (width - (Decimal.digitsText order.natAbs).length) '0' ++
        Decimal.digitsText order.natAbs) := by
    have hsign : isNumeralChar (if order < 0 then '-' else '+') = true := by split <;> decide
    have hzeros := numeral_replicate (width - (Decimal.digitsText order.natAbs).length)
      (show isNumeralChar '0' = true by decide)
    rw [numeral_append, numeral_cons, numeral_cons]
    exact ⟨⟨by decide, hsign, hzeros⟩, numeral_digitsText _⟩
  unfold Decimal.scientific
  rw [List.append_assoc]
  rcases ds with _ | ⟨d, _ | ⟨e, rest⟩⟩
  · exact hpower
  · exact numeral_append.2 ⟨h, hpower⟩
  · obtain ⟨hd, hrest⟩ := numeral_cons.1 h
    have hmantissa : Numeral (d :: '.' :: e :: rest) :=
      numeral_cons.2 ⟨hd, numeral_cons.2 ⟨by decide, hrest⟩⟩
    exact numeral_append.2 ⟨hmantissa, hpower⟩

/-- A positional text with a mark for whole numbers holds a point. -/
theorem point_mem_positional (ds : List Char) (order : Int) :
    '.' ∈ Decimal.positional ds order true := by
  rw [Decimal.positional]
  split
  · simp
  · dsimp only
    split <;> simp

theorem e_mem_scientific (ds : List Char) (order : Int) (width : Nat) :
    'e' ∈ Decimal.scientific ds order width := by
  simp [Decimal.scientific]

/-- Digits and the exponent of the first one in the plain format. -/
def Decimal.plainText (p : List Char × Int) : List Char :=
  if -4 ≤ p.2 ∧ p.2 < 16 then positional p.1 p.2 true else scientific p.1 p.2 2

/-- The text of a double up to its sign. -/
def Double.magnitudeText (x : Double) : List Char :=
  match x.view with
  | .nan => "nan".toList
  | .infinite => "inf".toList
  | .finite m q => Decimal.plainText (if m = 0 then (['0'], 0) else (Decimal.shortest m q).leading)

theorem Double.text_eq (x : Double) :
    x.text = x.magnitudeText ∨ x.text = '-' :: x.magnitudeText := by
  rw [text, format, magnitudeText]
  cases x.view with
  | nan => exact Or.inl rfl
  | infinite =>
    cases x.isNegative
    · exact Or.inl rfl
    · exact Or.inr rfl
  | finite m q =>
    dsimp only [DoubleFormat.plain, Decimal.plainText]
    generalize (if m = 0 then (['0'], (0 : Int)) else (Decimal.shortest m q).leading) = p
    cases x.isNegative
    · left
      by_cases hp : -4 ≤ p.2 ∧ p.2 < 16 <;> simp [hp]
    · right
      by_cases hp : -4 ≤ p.2 ∧ p.2 < 16 <;> simp [hp]

theorem numeral_plainText {p : List Char × Int} (h : Numeral p.1) :
    Numeral (Decimal.plainText p) := by
  rw [Decimal.plainText]
  split
  · exact numeral_positional h _ _
  · exact numeral_scientific h _ _

theorem numeral_magnitudeText (x : Double) : Numeral x.magnitudeText := by
  rw [Double.magnitudeText]
  split
  · decide
  · decide
  · refine numeral_plainText ?_
    split
    · decide
    · exact numeral_digitsText _

theorem numeral_text (x : Double) : Numeral x.text := by
  rcases x.text_eq with h | h
  · rw [h]
    exact numeral_magnitudeText x
  · rw [h]
    exact numeral_cons.2 ⟨by decide, numeral_magnitudeText x⟩

/-- The text of a double holds a point or a letter. -/
theorem exists_mark_magnitudeText (x : Double) :
    ∃ c ∈ x.magnitudeText, c ∈ ['.', 'e', 'n', 'i'] := by
  rw [Double.magnitudeText]
  split
  · exact ⟨'n', by decide, by decide⟩
  · exact ⟨'i', by decide, by decide⟩
  · rename_i m q _
    generalize (if m = 0 then (['0'], (0 : Int)) else (Decimal.shortest m q).leading) = p
    rw [Decimal.plainText]
    split
    · exact ⟨'.', point_mem_positional _ _, by decide⟩
    · exact ⟨'e', e_mem_scientific _ _ _, by decide⟩

/-- Taking off a sign leaves all characters but signs. -/
theorem mem_takeMinus_text {x : Double} {c : Char} (hc : c ∈ x.magnitudeText) (hne : c ≠ '-') :
    c ∈ (Attribute.takeMinus x.text).2 := by
  rcases x.text_eq with h | h
  · rw [h]
    cases hx : x.magnitudeText with
    | nil => rwa [hx] at hc
    | cons d ds =>
      rw [hx] at hc
      by_cases hd : d = '-'
      · subst hd
        exact (List.mem_cons.1 hc).resolve_left hne
      · rw [takeMinus_of_head? (by simpa using hd)]
        exact hc
  · rw [h]
    exact hc

/-- Whatever its sign, the text of a double is no row of digits. -/
theorem isDigits_text (x : Double) : Attribute.isDigits (Attribute.takeMinus x.text).2 = false := by
  obtain ⟨c, hc, hmark⟩ := exists_mark_magnitudeText x
  have hmem := mem_takeMinus_text hc (by
    rintro rfl
    exact absurd hmark (by decide))
  have hno : ∀ d ∈ ['.', 'e', 'n', 'i'], isDecimal d = false := by decide +kernel
  rw [Attribute.isDigits, Bool.and_eq_false_iff, List.all_eq_false]
  exact Or.inr ⟨c, hmem, by simp [hno c hmark]⟩

theorem view_bounds {x : Double} {m : Nat} {q : Int} (h : x.view = .finite m q) :
    m < 2 ^ 53 ∧ q ≤ 1000 := by
  have hexp : x.exponentBits < 2 ^ 11 := Nat.mod_lt _ (by decide)
  have hfrac : x.fractionBits < 2 ^ 52 := Nat.mod_lt _ (by decide)
  rw [Double.view] at h
  split at h
  · split at h <;> cases h
  · split at h
    · cases h
      exact ⟨by omega, by decide⟩
    · cases h
      refine ⟨?_, by omega⟩
      change 2 ^ 52 + x.fractionBits < 2 ^ 53
      omega

/-- Whole doubles have few digits. -/
theorem digits_length_of_toInt? {x : Double} {n : Int} (h : x.toInt? = some n) :
    (Decimal.digitsText n.natAbs).length ≤ maxDigits := by
  have hbound : n.natAbs < 10 ^ maxDigits := by
    rw [Double.toInt?] at h
    split at h
    · rename_i m q hview
      obtain ⟨hm, hq⟩ := view_bounds hview
      rw [Option.map_eq_some_iff] at h
      obtain ⟨i, hi, rfl⟩ := h
      obtain ⟨k, hk, hki⟩ := Option.bind_eq_some_iff.1 hi
      cases hki
      have hle : k ≤ m * 2 ^ q.toNat := by
        split at hk
        · cases hk
          exact Nat.le_refl _
        · split at hk
          · cases hk
            exact (Nat.div_le_self _ _).trans (Nat.le_mul_of_pos_right _ (by positivity))
          · cases hk
      have habs : (if x.isNegative then -(k : Int) else k).natAbs = k := by
        split <;> simp
      rw [habs]
      -- powers of two are below those of ten, which is enough for a double
      have hm' : m ≤ 10 ^ 53 := Nat.le_trans (Nat.le_of_lt hm) (Nat.pow_le_pow_left (by decide) _)
      calc k ≤ m * 2 ^ q.toNat := hle
        _ ≤ 10 ^ 53 * 10 ^ q.toNat := Nat.mul_le_mul hm' (Nat.pow_le_pow_left (by decide) _)
        _ = 10 ^ (53 + q.toNat) := (Nat.pow_add _ _ _).symm
        _ < 10 ^ maxDigits := Nat.pow_lt_pow_right (by decide) (by simp only [maxDigits]; omega)
    · cases h
  rw [Decimal.digitsText, Nat.length_toDigits_le_iff (by decide) (by decide)]
  exact hbound

/-! ### Literals -/

theorem numeral_doubleLiteral (x : Double) : Numeral (doubleLiteral x) := by
  rw [doubleLiteral]
  split
  · exact numeral_intText _
  · exact numeral_text x

theorem Num.numeral_literal (n : Num) : Numeral n.literal := by
  cases n with
  | int n => exact numeral_intText n
  | float x => exact numeral_doubleLiteral x

end ContentSchema
