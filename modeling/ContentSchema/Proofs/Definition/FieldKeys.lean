import ContentSchema.Proofs.Definition.Raised
import Mathlib.Data.List.Basic

/-!
# Issues among the keys of fields

Two rules look at the keys of all fields of a definition: keys are unique, and components leave the
keys of their variants alone.

* `keyIssuesFrom_eq_flatMap`: the issues are those of each position, in order.
* `issues_checkDefinition`: they come after those of the shape, none of which compares fields
  (`Issue.Raised.isLocal`).
* `told_definitionIssues`: whatever else is wrong with a definition, each repetition of a key and
  each key of a variant is reported once, at its position.
-/

namespace ContentSchema

/-! ### Positions of keys -/

/-- The key that the raw field at a position declares, if it is an object and its key a text. -/
def keyAt? (fields : List Value) (i : Nat) : Option String := fields[i]?.bind rawFieldKey?

/-- The first position before a given one where a key is declared. -/
def firstBefore? (fields : List Value) (i : Nat) (key : String) : Option Nat :=
  (List.range i).find? fun j => keyAt? fields j == some key

/-- The place and the words of the issue about a field with the key of an earlier one. -/
def repetition? (fields : List Value) (i : Nat) : Option (String × String) := do
  let key ← keyAt? fields i
  let first ← firstBefore? fields i key
  return ("fields." ++ toString i ++ ".key",
    "Field keys must be unique; '" ++ key ++ "' is already declared at fields." ++ toString first)

/-- The place and the words of the issue about a field with a key of variants. -/
def reservation? (fields : List Value) (i : Nat) : Option (String × String) := do
  let key ← keyAt? fields i
  if key = "variant_id" ∨ key = "enabled" then
    return ("fields." ++ toString i ++ ".key",
      "Field key '" ++ key ++ "' is reserved for A/B testing in components")
  else none

/-- What is told of an issue: its place and its words. -/
def Issue.told (i : Issue) : String × String := (i.pathText, i.fault.message)

/-- A key is declared before a position exactly if it is declared at an earlier one; the first such
position is found. -/
theorem firstBefore?_eq_some_iff {fields : List Value} {i first : Nat} {key : String} :
    firstBefore? fields i key = some first ↔ first < i ∧ keyAt? fields first = some key ∧
      ∀ j < first, keyAt? fields j ≠ some key := by
  rw [firstBefore?, List.find?_range_eq_some]
  simp only [beq_iff_eq, List.mem_range]
  constructor
  · rintro ⟨hkey, hlt, hbefore⟩
    exact ⟨hlt, hkey, fun j hj h => by simpa [h] using hbefore j hj⟩
  · rintro ⟨hlt, hkey, hbefore⟩
    exact ⟨hkey, hlt, fun j hj => by simpa using hbefore j hj⟩

/-- One position further, the key of that position is declared too. -/
theorem firstBefore?_succ (fields : List Value) (i : Nat) (key : String) :
    firstBefore? fields (i + 1) key =
      (firstBefore? fields i key).or (if keyAt? fields i = some key then some i else none) := by
  rw [firstBefore?, firstBefore?, List.range_succ, List.find?_append, List.find?_singleton]
  simp only [beq_iff_eq]

/-! ### One pass over the fields -/

section Pass

variable {kind : DefinitionKind} {fields : List Value}

/-- The issues about the key at a position. -/
def keyIssuesAt (kind : DefinitionKind) (fields : List Value) (i : Nat) : List Issue :=
  match keyAt? fields i with
  | none => []
  | some key =>
    let path := ["fields", toString i, "key"]
    (match firstBefore? fields i key with
      | some first => [⟨path, .duplicateKey key first⟩]
      | none => []) ++
    if kind = .component ∧ key ∈ variantKeys then [⟨path, .variantKey key⟩] else []

/-- From any position on, if the keys before it are remembered with their first positions, the
issues are those of each position. -/
theorem keyIssuesFrom_eq_flatMap {rest : List Value} {i : Nat} {seen : List (String × Nat)}
    (hrest : fields.drop i = rest) (hseen : ∀ key, seen.lookup key = firstBefore? fields i key) :
    keyIssuesFrom kind i seen rest =
      (List.range' i rest.length).flatMap (keyIssuesAt kind fields) := by
  induction rest generalizing i seen with
  | nil => rfl
  | cons raw rest ih =>
    have hraw : keyAt? fields i = rawFieldKey? raw := by
      have hget : fields[i]? = some raw := by
        rw [← List.head?_drop, hrest, List.head?_cons]
      rw [keyAt?, hget, Option.bind_some]
    have hrest' : fields.drop (i + 1) = rest := by
      rw [← List.drop_drop, hrest, List.drop_one, List.tail_cons]
    rw [List.length_cons, List.range'_succ, List.flatMap_cons, keyIssuesFrom, keyIssuesAt, hraw]
    cases hkey : rawFieldKey? raw with
    | none =>
      refine ih hrest' fun key => ?_
      rw [firstBefore?_succ, hraw, hkey, hseen]
      simp
    | some key =>
      dsimp only
      rw [hseen key]
      refine congrArg (_ ++ ·) (ih hrest' fun other => ?_)
      rw [firstBefore?_succ, hraw, hkey]
      -- only the first position of a key is remembered
      cases hfirst : firstBefore? fields i key with
      | some first =>
        rw [Option.isSome_some, if_pos rfl, hseen other]
        by_cases heq : key = other
        · rw [← heq, hfirst, Option.some_or]
        · rw [if_neg fun h => heq (Option.some.inj h), Option.or_none]
      | none =>
        rw [Option.isSome_none, if_neg Bool.false_ne_true, List.lookup_cons, hseen other]
        by_cases heq : other = key
        · rw [heq, hfirst]
          simp
        · rw [beq_false_of_ne heq, if_neg fun h => heq (Option.some.inj h).symm, Option.or_none]

/-- The issues about the keys of all fields are those of each position. -/
theorem keyIssuesFrom_zero (kind : DefinitionKind) (fields : List Value) :
    keyIssuesFrom kind 0 [] fields =
      (List.range fields.length).flatMap (keyIssuesAt kind fields) := by
  rw [List.range_eq_range']
  exact keyIssuesFrom_eq_flatMap rfl fun _ => rfl

theorem pathText_fieldKey (i : Nat) (f : Fault) :
    Issue.pathText ⟨["fields", toString i, "key"], f⟩ = "fields." ++ toString i ++ ".key" := by
  show "fields" ++ "." ++ toString i ++ "." ++ "key" = "fields." ++ toString i ++ ".key"
  rw [@String.append_assoc _ "." "key"]
  rfl

/-- A position is told to repeat a key if its key is declared before it. -/
theorem told_filter_isDuplicate (i : Nat) :
    ((keyIssuesAt kind fields i).filter (·.fault.isDuplicate)).map Issue.told =
      (repetition? fields i).toList := by
  rw [keyIssuesAt, repetition?]
  cases keyAt? fields i with
  | none => rfl
  | some key =>
    have hreserved : (if kind = .component ∧ key ∈ variantKeys then
        [(⟨["fields", toString i, "key"], .variantKey key⟩ : Issue)] else []).filter
          (·.fault.isDuplicate) = [] := by
      split <;> rfl
    dsimp only [Option.bind_eq_bind, Option.bind_some]
    rw [List.filter_append, hreserved, List.append_nil]
    cases firstBefore? fields i key with
    | none => rfl
    | some first => exact congrArg (fun place => [(place, _)]) (pathText_fieldKey i _)

/-- A position of a component is told to have a key of variants if it has one. -/
theorem told_filter_isReserved (i : Nat) :
    ((keyIssuesAt kind fields i).filter (·.fault.isReserved)).map Issue.told =
      if kind = .component then (reservation? fields i).toList else [] := by
  rw [keyIssuesAt, reservation?]
  cases keyAt? fields i with
  | none => exact (ite_self _).symm
  | some key =>
    have hduplicate : List.filter (·.fault.isReserved) (match firstBefore? fields i key with
        | some first => [(⟨["fields", toString i, "key"], .duplicateKey key first⟩ : Issue)]
        | none => []) = [] := by
      split <;> rfl
    have hvariant : key ∈ variantKeys ↔ key = "variant_id" ∨ key = "enabled" := by
      simp [variantKeys]
    dsimp only [Option.bind_eq_bind, Option.bind_some]
    rw [List.filter_append, hduplicate, List.nil_append]
    by_cases hkind : kind = .component
    · rw [if_pos hkind]
      by_cases hkey : key ∈ variantKeys
      · rw [if_pos ⟨hkind, hkey⟩, if_pos (hvariant.1 hkey)]
        exact congrArg (fun place => [(place, _)]) (pathText_fieldKey i _)
      · rw [if_neg (fun h => hkey h.2), if_neg (mt hvariant.2 hkey)]
        rfl
    · rw [if_neg hkind, if_neg (fun h => hkind h.1)]
      rfl

end Pass

/-! ### Issues of definitions -/

theorem Checked.issues_map {α β : Type} (f : α → β) (x : Checked α) :
    (f <$> x).issues = x.issues := by
  cases x <;> rfl

/-- The issues of a definition are those of its shape and those among the keys of its fields. -/
theorem issues_checkDefinition {α : Type} (kind : DefinitionKind) (read : Reader α)
    (entries : Entries) : (checkDefinition kind read (.object entries)).issues =
      (read (.object entries)).issues ++ fieldListIssues kind entries := by
  rw [checkDefinition, Checked.issues_seq, Checked.issues_map]
  cases fieldListIssues kind entries with
  | nil => rfl
  | cons issue issues => rfl

/-- No issue of the shape is about the keys of all fields. -/
theorem Checked.Raised.filter_eq_nil {α : Type} {x : Checked α} (h : x.Raised) :
    x.issues.filter (·.fault.isDuplicate) = [] ∧ x.issues.filter (·.fault.isReserved) = [] := by
  cases x with
  | accepted a => exact ⟨rfl, rfl⟩
  | rejected issues =>
    have hlocal := (h issues rfl).isLocal
    exact ⟨List.filter_eq_nil_iff.2 fun i hi => Bool.eq_false_iff.1 (hlocal i hi).1,
      List.filter_eq_nil_iff.2 fun i hi => Bool.eq_false_iff.1 (hlocal i hi).2⟩

/-- Whatever else is wrong with a definition that has a list of fields, the issues about repeated
keys are exactly one for each field with the key of an earlier one, which names the first such
field; the issues about keys of variants are exactly one for each field of a component with such a
key. -/
theorem told_definitionIssues (kind : DefinitionKind) {raw : Value} {fields : List Value}
    (h : raw.get? "fields" = some (.list fields)) :
    ((definitionIssues kind raw).filter (·.fault.isDuplicate)).map Issue.told =
        (List.range fields.length).filterMap (repetition? fields) ∧
      ((definitionIssues kind raw).filter (·.fault.isReserved)).map Issue.told =
        if kind = .component then (List.range fields.length).filterMap (reservation? fields)
        else [] := by
  obtain ⟨entries, rfl⟩ : ∃ entries, raw = .object entries := by
    cases raw with
    | object entries => exact ⟨entries, rfl⟩
    | null | bool | int | float | text | stamp | list => cases h
  have hlist : fieldListIssues kind entries =
      (List.range fields.length).flatMap (keyIssuesAt kind fields) := by
    rw [fieldListIssues, show Entries.find? entries "fields" = some (.list fields) from h]
    exact keyIssuesFrom_zero kind fields
  have hissues : ∃ read : List Issue, definitionIssues kind (.object entries) =
      read ++ (List.range fields.length).flatMap (keyIssuesAt kind fields) ∧
      read.filter (·.fault.isDuplicate) = [] ∧ read.filter (·.fault.isReserved) = [] := by
    rw [← hlist]
    cases kind with
    | model => exact ⟨_, issues_checkDefinition _ _ _, (ContentModel.raises_read _).filter_eq_nil⟩
    | component => exact ⟨_, issues_checkDefinition _ _ _, (Component.raises_read _).filter_eq_nil⟩
  obtain ⟨read, hissues, hduplicate, hreserved⟩ := hissues
  rw [hissues, List.filter_append, List.filter_append, hduplicate, hreserved, List.nil_append,
    List.nil_append, List.filter_flatMap, List.filter_flatMap, List.map_flatMap, List.map_flatMap]
  constructor
  · rw [List.filterMap_eq_flatMap_toList]
    exact congrArg (List.flatMap · _) (funext told_filter_isDuplicate)
  · rw [funext told_filter_isReserved]
    split
    · rw [List.filterMap_eq_flatMap_toList]
    · exact List.flatMap_eq_nil_iff.2 fun _ _ => rfl

/-- A component without a slug, with keys that are repeated or belong to variants, and with an item
that is no field. -/
def rawBanner : Value := .object [
  ("name", .text "Banner"),
  ("fields", .list [
    .object [("key", .text "enabled"), ("label", .text "Enabled"), ("type", .text "boolean")],
    .text "title",
    .object [("key", .text "title"), ("label", .text "Title"), ("type", .text "unknown")],
    .object [("key", .text "enabled")],
    .object [("key", .int 7)],
    .object [("key", .text "enabled"), ("label", .text "Enabled"), ("type", .text "boolean")]])]

/-- The repetitions of `enabled` name its first position, and all three belong to variants; neither
the missing slug nor the unknown type hides them. -/
theorem told_definitionIssues_rawBanner :
    ((definitionIssues .component rawBanner).filter (·.fault.isDuplicate)).map Issue.told = [
        ("fields.3.key", "Field keys must be unique; 'enabled' is already declared at fields.0"),
        ("fields.5.key", "Field keys must be unique; 'enabled' is already declared at fields.0")] ∧
      ((definitionIssues .component rawBanner).filter (·.fault.isReserved)).map Issue.told =
        ["fields.0.key", "fields.3.key", "fields.5.key"].map
          (·, "Field key 'enabled' is reserved for A/B testing in components") ∧
      ⟨["slug"], .missing⟩ ∈ definitionIssues .component rawBanner := by
  obtain ⟨hduplicate, hreserved⟩ := told_definitionIssues .component
    (show rawBanner.get? "fields" = _ from rfl)
  refine ⟨hduplicate.trans ?_, hreserved.trans ?_, ?_⟩
  · decide +kernel
  · decide +kernel
  · decide +kernel

end ContentSchema
