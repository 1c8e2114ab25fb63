import ContentSchema.Proofs.Definition.Valid
import ContentSchema.Schema.Reading

/-!
# Marks of a column

A column has a mark for lists and one for missing values, and a list has no mark for missing values.
This is seen to before the marks are read, by what counts as present.  A mark that is set counts, but
so does every text, also one that is read as false (`Value.isTruthy_iff_of_bool`).  So the column has
the marks that it is given, unless a text says that it is no list (`Column.hasMarks_iff_of_read`).
-/

namespace ContentSchema

variable {entries : Entries}

/-! ### Truth values and what counts as present -/

theorem Reader.boolOfInt_eq_accepted {n : Int} {b : Bool} (h : boolOfInt n = .accepted b) :
    n = if b then 1 else 0 := by
  rw [boolOfInt] at h
  split at h
  · rename_i hzero
    cases h
    exact hzero
  · split at h
    · rename_i hone
      cases h
      exact hone
    · cases h

/-- What is read as a truth value counts as present if it is true or a text. -/
theorem Value.isTruthy_iff_of_bool {v : Value} {b : Bool} (h : Reader.bool v = .accepted b) :
    v.isTruthy = true ↔ b = true ∨ ∃ s, v = .text s := by
  cases v with
  | bool b' =>
    cases h
    simp [isTruthy]
  | text s =>
    -- the empty text is no word for a truth value
    have hne : s ≠ "" := by
      rintro rfl
      cases h
    simp [isTruthy, hne]
  | int n =>
    rw [Reader.bool] at h
    split at h
    · rw [isTruthy, Reader.boolOfInt_eq_accepted h]
      cases b <;> simp
    · cases h
  | float x =>
    rw [Reader.bool] at h
    split at h
    · rename_i n hn
      split at h
      · rw [isTruthy, hn, Reader.boolOfInt_eq_accepted h]
        cases b <;> simp
      · cases h
    · cases h
  | null | stamp | list | object => cases h

namespace Column

/-! ### Marks that are given -/

/-- A mark is given: its entry is read as a truth value, or is left out and the mark not set. -/
inductive Given (entries : Entries) (key : String) : Bool → Prop where
  /-- There is no such entry. -/
  | omitted (h : entries.find? key = none) : Given entries key false
  /-- The entry is read as a truth value. -/
  | spelled {v : Value} {b : Bool} (h : entries.find? key = some v)
      (hread : Reader.bool v = .accepted b) : Given entries key b

/-- The column has these marks, but for that of missing values if it is a list; and the one mark
that it has is shown behind its type. -/
structure HasMarks (c : Column) (optional list : Bool) : Prop where
  /-- It is a list if it is marked as one. -/
  isList : c.isList = list
  /-- Its values may be missing if they are marked so and it is no list. -/
  nullable : c.nullable = (optional && !list)
  /-- The mark behind the type. -/
  signature : c.typeSignature = c.type ++ (if list then "[]" else if optional then "?" else "")

/-- The mark for lists is given by a text. -/
def SpellsList (entries : Entries) : Prop := ∃ s, entries.find? "is_list" = some (.text s)

variable {c : Column} {optional list : Bool}

theorem given_iff {key : String} {b : Bool} : Given entries key b ↔
    Record.defaulted (.plain key) false Reader.bool entries = .accepted b := by
  rw [Record.defaulted, Record.find?_plain]
  constructor
  · rintro (h | ⟨h, hread⟩)
    · rw [h]
      rfl
    · rw [h]
      exact Checked.within_eq_accepted.2 hread
  · intro h
    cases hfind : entries.find? key with
    | none =>
      rw [hfind] at h
      cases h
      exact .omitted hfind
    | some v =>
      rw [hfind] at h
      exact .spelled hfind (Checked.within_eq_accepted.1 h)

/-- A mark is given in one way. -/
theorem Given.unique {key : String} {b b' : Bool} (h : Given entries key b)
    (h' : Given entries key b') : b = b' := by
  have heq := (given_iff.1 h).symm.trans (given_iff.1 h')
  cases heq
  rfl

/-- A mark that is given counts as present if it is set or a text. -/
theorem Given.any_isTruthy_iff {key : String} {b : Bool} (h : Given entries key b) :
    (entries.find? key).any Value.isTruthy = true ↔
      b = true ∨ ∃ s, entries.find? key = some (.text s) := by
  rcases h with h | ⟨h, hread⟩
  · simp [h]
  · simp [h, Value.isTruthy_iff_of_bool hread]

/-! ### Marks that are read -/

theorem readParts_eq_accepted (h : readParts entries = .accepted c) :
    Given entries "nullable" c.nullable ∧ Given entries "is_list" c.isList := by
  obtain ⟨_, _, h₁, -, rfl⟩ := Checked.seq_eq_accepted.1 h
  obtain ⟨_, _, h₂, -, rfl⟩ := Checked.seq_eq_accepted.1 h₁
  obtain ⟨_, _, h₃, -, rfl⟩ := Checked.seq_eq_accepted.1 h₂
  obtain ⟨_, _, h₄, -, rfl⟩ := Checked.seq_eq_accepted.1 h₃
  obtain ⟨_, _, h₅, -, rfl⟩ := Checked.seq_eq_accepted.1 h₄
  obtain ⟨_, _, h₆, -, rfl⟩ := Checked.seq_eq_accepted.1 h₅
  obtain ⟨_, isList, h₇, hlist, rfl⟩ := Checked.seq_eq_accepted.1 h₆
  obtain ⟨_, nullable, h₈, hnullable, rfl⟩ := Checked.seq_eq_accepted.1 h₇
  obtain ⟨_, _, h₉, -, rfl⟩ := Checked.seq_eq_accepted.1 h₈
  obtain ⟨_, -, rfl⟩ := Checked.map_eq_accepted.1 h₉
  exact ⟨given_iff.2 hnullable, given_iff.2 hlist⟩

theorem find?_listIsNeverNullable_of_ne {key : String} (h : key ≠ "nullable") :
    (listIsNeverNullable entries).find? key = entries.find? key := by
  rw [listIsNeverNullable]
  split
  · exact Entries.find?_insert_of_ne h
  · rfl

theorem given_listIsNeverNullable_of_ne {key : String} {b : Bool} (h : key ≠ "nullable") :
    Given (listIsNeverNullable entries) key b ↔ Given entries key b := by
  rw [given_iff, given_iff, Record.defaulted, Record.defaulted, Record.find?_plain,
    Record.find?_plain, find?_listIsNeverNullable_of_ne h]

/-- The mark for missing values stays if it is set, and the mark for lists neither set nor a text. -/
theorem nullable_eq_true_iff_of_given {b : Bool} (hoptional : Given entries "nullable" optional)
    (hlist : Given entries "is_list" list) (h : Given (listIsNeverNullable entries) "nullable" b) :
    b = true ↔ optional = true ∧ list = false ∧ ¬ SpellsList entries := by
  have hpresent := hlist.any_isTruthy_iff
  rw [listIsNeverNullable] at h
  dsimp only at h
  split at h
  · rename_i hmarked
    -- both marks count as present, and the one for missing values has been replaced
    have hb : b = false := h.unique (.spelled Entries.find?_insert_self rfl)
    rw [Bool.and_eq_true] at hmarked
    rcases hpresent.1 hmarked.1 with htrue | htext
    · simp [hb, htrue]
    · simp [hb, SpellsList, htext]
  · rename_i hmarked
    obtain rfl := h.unique hoptional
    cases b with
    | false => simp
    | true =>
      rw [hoptional.any_isTruthy_iff.2 (.inl rfl), Bool.and_true, hpresent, not_or] at hmarked
      simpa [SpellsList] using hmarked

theorem typeSignature_eq (c : Column) : c.typeSignature =
    c.type ++ (if c.isList then "[]" else if c.nullable then "?" else "") := by
  rw [typeSignature]
  split
  · rfl
  · split
    · rfl
    · exact String.append_empty.symm

/-- A column that is read has the marks that it is given, unless its values may be missing and a text
says that it is no list. -/
theorem hasMarks_iff_of_read (h : read (.object entries) = .accepted c)
    (hoptional : Given entries "nullable" optional) (hlist : Given entries "is_list" list) :
    c.HasMarks optional list ↔ ¬ (optional = true ∧ list = false ∧ SpellsList entries) := by
  obtain ⟨hnullable, hisList⟩ := readParts_eq_accepted h
  have hlist' : c.isList = list :=
    ((given_listIsNeverNullable_of_ne (by decide)).1 hisList).unique hlist
  have hiff := nullable_eq_true_iff_of_given hoptional hlist hnullable
  constructor
  · rintro hmarks ⟨rfl, rfl, htext⟩
    exact (hiff.1 hmarks.nullable).2.2 htext
  · intro hspelled
    have hnullable' : c.nullable = (optional && !list) := by
      rw [Bool.eq_iff_iff, hiff, Bool.and_eq_true, Bool.not_eq_true']
      tauto
    refine ⟨hlist', hnullable', ?_⟩
    rw [typeSignature_eq, hlist', hnullable']
    cases list <;> simp

/-- A column whose values may be missing and of which a text says that it is no list. -/
def rawNickname : Entries :=
  [("name", .text "nickname"), ("type", .text "String"), ("nullable", .bool true),
    ("is_list", .text "false")]

/-- It is read without the mark for missing values. -/
theorem not_hasMarks_rawNickname :
    read (.object rawNickname) = .accepted (.bare "nickname" "String") ∧
    Given rawNickname "nullable" true ∧ Given rawNickname "is_list" false ∧
    ¬ (bare "nickname" "String").HasMarks true false := by
  have hread : read (.object rawNickname) = .accepted (.bare "nickname" "String") := by rfl
  have hoptional : Given rawNickname "nullable" true := .spelled rfl rfl
  have hlist : Given rawNickname "is_list" false := .spelled rfl (by rfl)
  refine ⟨hread, hoptional, hlist, fun hmarks => ?_⟩
  exact (hasMarks_iff_of_read hread hoptional hlist).1 hmarks ⟨rfl, rfl, "false", rfl⟩

end Column

end ContentSchema
