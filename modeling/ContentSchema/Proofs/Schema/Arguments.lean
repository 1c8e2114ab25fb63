import ContentSchema.Proofs.Schema.Relations

/-!
# Arguments of a relation

A relation that is written by hand, each argument behind its title.  Columns and actions are looked
for in the whole attribute, so they may stand in any order; the name is looked for at the start only.
So the relation is read with what its arguments say if no name is given or the name stands first, and
without its name otherwise (`relation_argumentsText_eq_iff`).
-/

namespace ContentSchema

open Text Attribute

namespace Relation

/-- The arguments of a relation, each of them given or not. -/
structure Arguments where
  /-- The name of the relation. -/
  name : Option String
  /-- Columns of this table. -/
  fields : Option (List String)
  /-- Columns of the other table. -/
  references : Option (List String)
  /-- What happens to the row when the other row is deleted. -/
  onDelete : Option ReferentialAction
  /-- What happens to the row when the key of the other row changes. -/
  onUpdate : Option ReferentialAction

/-- The attribute with the given entries as its arguments. -/
def argumentsText (es : List (String × List Char)) : List Char :=
  "@relation(".toList ++ joinWith [',', ' '] (es.map entryText) ++ [')']

namespace Arguments

/-- The entry of a name. -/
def nameEntry (n : String) : String × List Char := ("name", '"' :: n.toList ++ ['"'])

/-- The entries of the arguments that are given. -/
def entries (a : Arguments) : List (String × List Char) :=
  (a.name.map nameEntry).toList ++
    (a.fields.map fun names => ("fields", bracketed names)).toList ++
    (a.references.map fun names => ("references", bracketed names)).toList ++
    (a.onDelete.map fun action => ("onDelete", action.name.toList)).toList ++
    (a.onUpdate.map fun action => ("onUpdate", action.name.toList)).toList

/-- The relation that the arguments describe. -/
def relation (a : Arguments) : Relation :=
  ⟨a.name, a.fields.getD [], a.references.getD [], a.onDelete, a.onUpdate⟩

/-- The name of the relation is made of the characters of words, and columns are words. -/
structure Worded (a : Arguments) : Prop where
  /-- The name of the relation may be empty. -/
  name : ∀ n ∈ a.name, Wordy n.toList
  /-- Columns of this table are words. -/
  fields : ∀ names ∈ a.fields, AllWords names
  /-- Columns of the other table are words. -/
  references : ∀ names ∈ a.references, AllWords names

variable {a : Arguments} {es : List (String × List Char)} {e : String × List Char}

/-! ### Entries -/

theorem mem_entries_iff : e ∈ a.entries ↔
    (∃ n, a.name = some n ∧ e = nameEntry n) ∨
    (∃ names, a.fields = some names ∧ e = ("fields", bracketed names)) ∨
    (∃ names, a.references = some names ∧ e = ("references", bracketed names)) ∨
    (∃ action, a.onDelete = some action ∧ e = ("onDelete", action.name.toList)) ∨
    ∃ action, a.onUpdate = some action ∧ e = ("onUpdate", action.name.toList) := by
  simp [entries, eq_comm]

theorem title_mem_of_mem_entries (he : e ∈ a.entries) : e.1 ∈ "name" :: titles := by
  rcases mem_entries_iff.1 he with ⟨_, -, rfl⟩ | ⟨_, -, rfl⟩ | ⟨_, -, rfl⟩ | ⟨_, -, rfl⟩ |
    ⟨_, -, rfl⟩ <;> simp [nameEntry, titles]

/-- No colon stands in a title or a value. -/
theorem Worded.colon_not_mem (h : a.Worded) (he : e ∈ a.entries) :
    ':' ∉ e.1.toList ∧ ':' ∉ e.2 := by
  have hcolon : isWordChar ':' = false := isWordChar_eq_false (by decide)
  have htitles : ∀ t ∈ "name" :: titles, ':' ∉ t.toList := by decide
  refine ⟨htitles _ (title_mem_of_mem_entries he), ?_⟩
  rcases mem_entries_iff.1 he with ⟨n, hn, rfl⟩ | ⟨names, hnames, rfl⟩ | ⟨names, hnames, rfl⟩ |
    ⟨action, -, rfl⟩ | ⟨action, -, rfl⟩
  · simp [nameEntry, (h.name n hn).not_mem hcolon]
  · exact (h.fields names hnames).colon_not_mem_bracketed
  · exact (h.references names hnames).colon_not_mem_bracketed
  · exact colon_not_mem_name action
  · exact colon_not_mem_name action

theorem argumentsText_eq (es : List (String × List Char)) :
    argumentsText es = "@relation(".toList ++ entriesText es := by
  unfold argumentsText
  rw [List.append_assoc]
  exact congrArg ("@relation(".toList ++ ·) (joinWith_entries es)

/-- In whatever order the arguments stand, the attribute lists them. -/
theorem Worded.lists_argumentsText (h : a.Worded) (hes : es.Perm a.entries) :
    Lists (argumentsText es) es := by
  have hstart : ':' ∉ "@relation(".toList := by decide
  have hcolon : ∀ e ∈ es, ':' ∉ e.1.toList ∧ ':' ∉ e.2 := fun e he =>
    h.colon_not_mem (hes.mem_iff.1 he)
  have htitles : ∀ e ∈ es, e.1 ∈ "name" :: titles := fun e he =>
    title_mem_of_mem_entries (hes.mem_iff.1 he)
  rw [argumentsText_eq]
  exact lists_append_entriesText hstart hcolon htitles

/-! ### Reading arguments in any order -/

/-- Columns that are given in one entry, or not given, are said by the entries. -/
theorem tellsColumns_getD {title : String} {given : Option (List String)}
    (h : ∀ v, (title, v) ∈ es ↔ ∃ names, given = some names ∧ v = bracketed names) :
    TellsColumns es title (given.getD []) := by
  cases given with
  | none =>
    refine ⟨fun v hv => ?_, fun hne => absurd rfl hne⟩
    obtain ⟨_, hnone, -⟩ := (h v).1 hv
    cases hnone
  | some names =>
    refine ⟨fun v hv => ?_, fun _ => ⟨_, (h _).2 ⟨names, rfl, rfl⟩⟩⟩
    obtain ⟨_, hsome, rfl⟩ := (h v).1 hv
    cases hsome
    rfl

/-- In whatever order the arguments stand, they say what the relation holds. -/
theorem tells_of_perm (hes : es.Perm a.entries) : Tells es a.relation where
  fields := tellsColumns_getD fun v => by simp [hes.mem_iff, mem_entries_iff, nameEntry]
  references := tellsColumns_getD fun v => by simp [hes.mem_iff, mem_entries_iff, nameEntry]
  onDelete v := by simp [hes.mem_iff, mem_entries_iff, nameEntry, relation]
  onUpdate v := by simp [hes.mem_iff, mem_entries_iff, nameEntry, relation]

/-- Columns and actions are read in whatever order the arguments stand. -/
theorem Worded.relation_argumentsText (h : a.Worded) (hes : es.Perm a.entries) :
    { Attribute.relation (argumentsText es) with name := a.name } = a.relation := by
  have hwords : ∀ given : Option (List String), (∀ names ∈ given, AllWords names) →
      AllWords (given.getD []) := by
    intro given hgiven
    cases given with
    | none => exact fun _ hf => absurd hf List.not_mem_nil
    | some names => exact hgiven names rfl
  exact (h.lists_argumentsText hes).relation (tells_of_perm hes) (hwords _ h.fields)
    (hwords _ h.references)

/-! ### Reading the name -/

theorem relationName?_title {rest cs : List Char} (hrest : rest.dropWhile isBlank = cs) :
    Attribute.relationName? ("@relation(".toList ++ ("name:".toList ++ rest)) =
      (Attribute.quotedAt? cs).map Prod.fst := by
  have hstart : dropStart? "@relation(".toList ("@relation(".toList ++ ("name:".toList ++ rest)) =
      some ("name:".toList ++ rest) := Attribute.dropStart?_eq_some.2 rfl
  have htitle : dropStart? "name:".toList ("name:".toList ++ rest) = some rest :=
    Attribute.dropStart?_eq_some.2 rfl
  have hdrop : ("name:".toList ++ rest).dropWhile isBlank = "name:".toList ++ rest :=
    List.dropWhile_cons_of_neg (by decide)
  rw [Attribute.relationName?, hstart]
  simp only [Option.bind_eq_bind, Option.bind_some, hdrop, htitle, hrest]
  cases Attribute.quotedAt? cs <;> rfl

/-- A name with a title that stands first is read, unless it is empty. -/
theorem relationName?_nameEntry {n : String} (hn : Wordy n.toList) (es : List (String × List Char)) :
    (Attribute.relationName? (argumentsText (nameEntry n :: es))).map String.ofList =
      if n = "" then none else some n := by
  have htext : argumentsText (nameEntry n :: es) =
      "@relation(".toList ++ ("name:".toList ++
        ' ' :: '"' :: (n.toList ++ '"' :: moreEntries es)) := by
    rw [argumentsText_eq, entriesText, entryText, nameEntry]
    simp
  have hblank : (' ' :: '"' :: (n.toList ++ '"' :: moreEntries es)).dropWhile isBlank =
      '"' :: (n.toList ++ '"' :: moreEntries es) := rfl
  rw [htext, relationName?_title hblank]
  split
  · next hempty =>
    rw [hempty]
    rfl
  · next hne =>
    have hquote : '"' ∉ n.toList := hn.not_mem (isWordChar_eq_false (by decide))
    rw [quotedAt?_append hquote (by simpa using hne)]
    simp

/-- The name is read if it stands first, and only then. -/
theorem Worded.name_argumentsText_iff (h : a.Worded) (hes : es.Perm a.entries) :
    (Attribute.relationName? (argumentsText es)).map String.ofList = a.name ↔
      ∀ n ∈ a.name, n ≠ "" ∧ es.head? = some (nameEntry n) := by
  by_cases hfirst : ∀ e ∈ es.head?, e.1 ∈ titles
  · rw [argumentsText_eq, relationName?_entriesText_eq_none hfirst]
    constructor
    · rintro hname n hn
      rw [← hname] at hn
      cases hn
    · intro hhead
      cases hname : a.name with
      | none => rfl
      | some n => exact absurd (hfirst _ (hhead n hname).2) (by simp [nameEntry, titles])
  · -- the first entry is that of the name
    push Not at hfirst
    obtain ⟨e, he, htitle⟩ := hfirst
    obtain ⟨n, hname, rfl⟩ : ∃ n, a.name = some n ∧ e = nameEntry n := by
      rcases mem_entries_iff.1 (hes.mem_iff.1 (List.mem_of_mem_head? he)) with hn | ⟨_, -, rfl⟩ |
        ⟨_, -, rfl⟩ | ⟨_, -, rfl⟩ | ⟨_, -, rfl⟩
      · exact hn
      all_goals exact absurd (by simp [titles]) htitle
    obtain ⟨rest, rfl⟩ := List.head?_eq_some_iff.1 he
    rw [relationName?_nameEntry (h.name n hname), hname]
    by_cases hne : n = "" <;> simp [hne]

/-- The attribute says what its arguments say if no name is given or the name stands first; if not,
it says what they say apart from the name. -/
theorem relation_argumentsText_eq_iff (h : a.Worded) (hes : es.Perm a.entries) :
    (Attribute.relation (argumentsText es) = a.relation ↔
      ∀ n ∈ a.name, n ≠ "" ∧ es.head? = some (nameEntry n)) ∧
    { Attribute.relation (argumentsText es) with name := a.name } = a.relation := by
  have hothers := h.relation_argumentsText hes
  refine ⟨?_, hothers⟩
  rw [← h.name_argumentsText_iff hes]
  constructor
  · intro heq
    exact congrArg Relation.name heq
  · intro hname
    calc Attribute.relation (argumentsText es)
        = { Attribute.relation (argumentsText es) with
            name := (Attribute.relationName? (argumentsText es)).map String.ofList } := rfl
      _ = a.relation := by rw [hname, hothers]

/-- A reference to the user who owns a row, with the name of the relation. -/
def ownerArguments : Arguments where
  name := some "Owner"
  fields := some ["owner_id"]
  references := some ["id"]
  onDelete := none
  onUpdate := none

/-- A name that stands last is lost. -/
theorem relation_ownerArguments_ne :
    ownerArguments.Worded ∧ (ownerArguments.entries.rotate 1).Perm ownerArguments.entries ∧
      argumentsText (ownerArguments.entries.rotate 1) =
        "@relation(fields: [owner_id], references: [id], name: \"Owner\")".toList ∧
      Attribute.relation
          "@relation(fields: [owner_id], references: [id], name: \"Owner\")".toList ≠
        ownerArguments.relation := by
  have hworded : ownerArguments.Worded := ⟨by decide, by decide, by decide⟩
  have hperm : (ownerArguments.entries.rotate 1).Perm ownerArguments.entries :=
    List.rotate_perm _ _
  have htext : argumentsText (ownerArguments.entries.rotate 1) =
      "@relation(fields: [owner_id], references: [id], name: \"Owner\")".toList := by
    decide
  have hfirst : ¬ ∀ n ∈ ownerArguments.name,
      n ≠ "" ∧ (ownerArguments.entries.rotate 1).head? = some (nameEntry n) := by
    decide
  refine ⟨hworded, hperm, htext, fun heq => ?_⟩
  rw [← htext] at heq
  exact hfirst ((relation_argumentsText_eq_iff hworded hperm).1.1 heq)

end Arguments

end Relation

end ContentSchema
