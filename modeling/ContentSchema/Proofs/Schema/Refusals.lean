import ContentSchema.Proofs.Schema.Defaults

/-!
# Texts that are no schema

A schema text is refused for a default with too many digits only, for the first one if there are
several (`errorOf?_parseTables`).  Each part of the reader fails for what it reads, whatever was
read before it; so the failure of a fold is that of the first item that fails (`errorOf?_foldlM`).
-/

namespace ContentSchema

open Text (strip)

/-! ### Failures -/

section Failure

variable {ε α β σ : Type}

/-- Why a computation fails, if it does. -/
def errorOf? : Except ε α → Option ε
  | .ok _ => none
  | .error e => some e

theorem errorOf?_eq_none {x : Except ε α} : errorOf? x = none ↔ ∃ a, x = .ok a := by
  cases x <;> simp [errorOf?]

theorem errorOf?_eq_some {x : Except ε α} {e : ε} : errorOf? x = some e ↔ x = .error e := by
  cases x <;> simp [errorOf?]

/-- What follows a computation and cannot fail adds no failure. -/
theorem errorOf?_map (x : Except ε α) (f : α → β) : errorOf? (f <$> x) = errorOf? x := by
  cases x <;> rfl

/-- A fold fails as the first item at which it fails, if the state makes no difference for this. -/
theorem errorOf?_foldlM {f : σ → β → Except ε σ} {refusal? : β → Option ε}
    (h : ∀ s b, errorOf? (f s b) = refusal? b) (l : List β) (s : σ) :
    errorOf? (l.foldlM f s) = l.findSome? refusal? := by
  induction l generalizing s with
  | nil => rfl
  | cons b l ih =>
    rw [List.foldlM_cons, List.findSome?_cons, ← h s b]
    cases f s b with
    | error e => rfl
    | ok s' => exact ih s'

theorem errorOf?_mapM (f : α → Except ε β) (l : List α) :
    errorOf? (l.mapM f) = l.findSome? fun a => errorOf? (f a) := by
  induction l with
  | nil => rfl
  | cons a l ih =>
    rw [List.mapM_cons, List.findSome?_cons]
    cases f a with
    | error e => rfl
    | ok b =>
      rw [← ih]
      cases l.mapM f <;> rfl

/-- The first hit among items that are made of others is the first hit of the first that has one. -/
theorem findSome?_flatMap {parts : α → List β} {f : β → Option ε} (l : List α) :
    (l.flatMap parts).findSome? f = l.findSome? fun a => (parts a).findSome? f := by
  induction l with
  | nil => rfl
  | cons a l ih =>
    rw [List.flatMap_cons, List.findSome?_append, ih, List.findSome?_cons]
    cases (parts a).findSome? f <;> rfl

end Failure

/-! ### Attributes -/

namespace Attribute

/-- The digits of a default that has more of them than allowed. -/
def overlong? (attr : List Char) : Option (List Char) := do
  let digits := (takeMinus (strip (← defaultBody? attr))).2
  if isDigits digits && maxDigits < digits.length then some digits else none

/-- Why an attribute is refused: it is a default with too many digits. -/
def refusal? (attr : List Char) : Option SchemaError :=
  (overlong? attr).map fun digits => .tooManyDigits digits.length

theorem isSome_overlong?_iff {attr : List Char} : (overlong? attr).isSome ↔ IsOverlong attr := by
  rw [overlong?, IsOverlong]
  cases defaultBody? attr with
  | none => simp
  | some body => simp [Option.isSome_iff_exists]

theorem refusal?_eq_none_of_not {attr : List Char} (h : ¬ IsOverlong attr) :
    refusal? attr = none := by
  rw [← isSome_overlong?_iff, Option.not_isSome_iff_eq_none] at h
  rw [refusal?, h]
  rfl

theorem errorOf?_literalValue (value : List Char) :
    errorOf? (literalValue value) =
      if isDigits (takeMinus value).2 && maxDigits < (takeMinus value).2.length then
        some (.tooManyDigits (takeMinus value).2.length) else none := by
  by_cases herror : ∃ e, literalValue value = .error e
  · obtain ⟨hdigits, hlong⟩ := literalValue_eq_error_iff.1 herror
    obtain ⟨e, he⟩ := herror
    rw [if_pos (by simp [hdigits, hlong]), errorOf?_eq_some]
    rw [literalValue] at he ⊢
    split at he
    · cases he
    split at he
    · cases he
    rename_i htrue hfalse
    rw [if_neg htrue, if_neg hfalse]
    simp only [hdigits, hlong, if_true]
    rfl
  · rw [if_neg fun h => herror (literalValue_eq_error_iff.2 (by simpa using h)), errorOf?_eq_none]
    cases hvalue : literalValue value with
    | ok v => exact ⟨v, rfl⟩
    | error e => exact absurd ⟨e, hvalue⟩ herror

theorem errorOf?_defaultValue? (attr : List Char) :
    errorOf? (defaultValue? attr) = refusal? attr := by
  rw [defaultValue?, refusal?, overlong?]
  cases defaultBody? attr with
  | none => rfl
  | some body =>
    dsimp only [Option.bind_eq_bind, Option.bind_some]
    rw [errorOf?_map, errorOf?_literalValue]
    split <;> rfl

end Attribute

/-- A column refuses an attribute for its digits, whatever the column has already. -/
theorem Column.errorOf?_addAttribute (c : Column) (attr : List Char) :
    errorOf? (c.addAttribute attr) = Attribute.refusal? attr := by
  by_cases hlong : Attribute.IsOverlong attr
  · have hdefault : startsWith "@default" attr = true := by
      obtain ⟨t, rfl⟩ := startsWith_iff.1 (Attribute.startsWith_of_isOverlong hlong)
      rfl
    have hrelation : startsWith "@relation" attr = false := by
      by_contra h
      exact Attribute.not_isOverlong_of_startsWith (by simpa using h) (by decide) hlong
    have hmap : startsWith "@map" attr = false := by
      by_contra h
      exact Attribute.not_isOverlong_of_startsWith (by simpa using h) (by decide) hlong
    rw [addAttribute_of_plain hrelation hmap, defaultWith, if_pos hdefault,
      ← Attribute.errorOf?_defaultValue?]
    cases Attribute.defaultValue? attr <;> rfl
  · rw [Attribute.refusal?_eq_none_of_not hlong]
    exact errorOf?_eq_none.2 (Column.exists_addAttribute_iff.2 hlong)

/-! ### Lines, blocks and texts -/

/-- Whether a line begins with a name and a type. -/
def hasNameAndType (line : List Char) : Bool :=
  match Text.words line with
  | _ :: token :: _ => !(splitType token).1.isEmpty
  | _ => false

/-- Whether a line without blanks at its ends is read as a column: it is neither empty nor a comment
nor a directive, and has a name and a type. -/
def declaresColumn (line : List Char) : Bool :=
  !line.isEmpty && !startsWith "//" line && !startsWith "@@" line && hasNameAndType line

/-- The attributes that are read in a line. -/
def lineAttributes (line : List Char) : List (List Char) :=
  if declaresColumn line then Attribute.split line else []

/-- The attributes that are read in a block. -/
def Block.attributes (b : Block) : List (List Char) :=
  ((Text.lines b.body).map strip).flatMap lineAttributes

/-- The attributes that are read in a schema text. -/
def schemaAttributes (text : List Char) : List (List Char) := (blocks text).flatMap (·.attributes)

theorem Column.errorOf?_parse? (line : List Char) :
    errorOf? (Column.parse? line) =
      if hasNameAndType line then (Attribute.split line).findSome? Attribute.refusal?
      else none := by
  rw [Column.parse?, hasNameAndType]
  match Text.words line with
  | [] => rfl
  | [_] => rfl
  | name :: token :: _ =>
    dsimp only
    by_cases hempty : (splitType token).1.isEmpty = true
    · rw [if_pos hempty, if_neg (by simp [hempty])]
      rfl
    · rw [if_neg hempty, if_pos (by simpa using hempty)]
      exact (errorOf?_map _ _).trans (errorOf?_foldlM errorOf?_addAttribute _ _)

theorem startsWith_directive {title : String} {line : List Char} (h : startsWith title line = true)
    (htitle : "@@".toList <+: title.toList) : startsWith "@@" line = true :=
  startsWith_iff.2 (htitle.trans (startsWith_iff.1 h))

/-- A line is refused for the first of its attributes that is. -/
theorem Table.errorOf?_addLine (t : Table) (line : List Char) :
    errorOf? (t.addLine line) = (lineAttributes line).findSome? Attribute.refusal? := by
  have hnone : declaresColumn line = false → lineAttributes line = [] := by
    intro h
    rw [lineAttributes, h]
    rfl
  rw [addLine]
  split
  case isTrue hpassed =>
    rw [hnone (by rcases Bool.or_eq_true _ _ ▸ hpassed with h | h <;> simp [declaresColumn, h])]
    rfl
  case isFalse hpassed =>
    split
    case isTrue hindex =>
      rw [hnone (by simp [declaresColumn, startsWith_directive hindex (by decide)])]
      rfl
    split
    case isTrue hunique =>
      rw [hnone (by simp [declaresColumn, startsWith_directive hunique (by decide)])]
      rfl
    split
    case isTrue hmap =>
      rw [hnone (by simp [declaresColumn, startsWith_directive hmap (by decide)])]
      split <;> rfl
    split
    case isTrue hother =>
      rw [hnone (by simp [declaresColumn, hother])]
      rfl
    case isFalse hother =>
      rw [bind_pure_comp, errorOf?_map, Column.errorOf?_parse?, lineAttributes, declaresColumn]
      simp only [Bool.or_eq_true, not_or, Bool.not_eq_true] at hpassed hother
      simp only [hpassed, hother, Bool.not_false, Bool.true_and]
      cases hasNameAndType line <;> rfl

theorem Block.errorOf?_table (b : Block) :
    errorOf? b.table = b.attributes.findSome? Attribute.refusal? := by
  rw [table, errorOf?_foldlM Table.errorOf?_addLine, attributes, findSome?_flatMap]

/-- A schema text is refused for the first of its attributes that is refused: a default with too
many digits. -/
theorem errorOf?_parseTables (text : List Char) :
    errorOf? (parseTables text) = (schemaAttributes text).findSome? Attribute.refusal? := by
  have hblocks : (fun b : Block => errorOf? b.table) =
      fun b => b.attributes.findSome? Attribute.refusal? := funext Block.errorOf?_table
  rw [parseTables, bind_pure_comp, errorOf?_map, errorOf?_mapM, hblocks, schemaAttributes,
    findSome?_flatMap]

end ContentSchema
