import ContentSchema.Definition.Check
import Mathlib.Data.List.Basic

/-!
# Repeated slugs

Definitions checked together are compared under the names they are reported under.  A definition
with a slug of its own is told to repeat an earlier one exactly if the slugs are the same; but all
definitions without one are reported under the same words, and so every one after the first is told
to repeat it.

* `filter_observeAll`: the repetitions observed are those of each position, in order.
* `reportedNameAt_eq_iff`: when two definitions are reported under the same name.
* `duplicates_checkDefinitions`: which definitions are told to repeat a slug, and when these are
  just those that do.
* `not_duplicates_slugless`: they are not where two models have no slug.
-/

namespace ContentSchema

/-! ### Positions of slugs -/

/-- The slug that the raw definition at a position declares. -/
def slugAt? (raws : List Value) (i : Nat) : Option String := raws[i]?.bind rawSlug?

/-- The name under which the raw definition at a position is reported. -/
def reportedNameAt (raws : List Value) (i : Nat) : String := reportedName (raws.getD i .null)

/-- The slug at a position is a text that an earlier definition has for a slug too. -/
def repeatsSlug (raws : List Value) (i : Nat) : Bool :=
  match slugAt? raws i with
  | some slug => (List.range i).any fun j => slugAt? raws j == some slug
  | none => false

/-- The definition at a position is reported under the words for an unknown slug: its slug is no
text, or it is empty, or it consists of these very words. -/
def isUnnamed (raws : List Value) (i : Nat) : Bool :=
  match slugAt? raws i with
  | some slug => slug == "" || slug == "<unknown>"
  | none => true

/-- The definition at a position and an earlier one are both reported under the words for an unknown
slug. -/
def repeatsUnnamed (raws : List Value) (i : Nat) : Bool :=
  isUnnamed raws i && (List.range i).any (isUnnamed raws)

/-- The definition at a position repeats the slug of an earlier one, or like an earlier one lacks a
slug to be reported under. -/
def repeatsName (raws : List Value) (i : Nat) : Bool :=
  repeatsSlug raws i || repeatsUnnamed raws i

/-- The raw definitions of a kind. -/
def DefinitionKind.among (kind : DefinitionKind) (models components : List Value) : List Value :=
  match kind with
  | .model => models
  | .component => components

/-- The code of findings about repeated slugs. -/
def DefinitionKind.duplicateCode (kind : DefinitionKind) : String :=
  "DUPLICATE_" ++ kind.capitals ++ "_SLUG"

section Names

variable {raws : List Value} {i j : Nat}

theorem reportedNameAt_eq (raws : List Value) (i : Nat) : reportedNameAt raws i =
    match slugAt? raws i with
    | some slug => if slug = "" then "<unknown>" else slug
    | none => "<unknown>" := by
  rw [reportedNameAt, slugAt?, reportedName, List.getD_eq_getElem?_getD]
  cases raws[i]? with
  | none => rfl
  | some raw => rfl

/-- Without a name of its own, a definition is reported under the words for an unknown slug. -/
theorem isUnnamed_iff : isUnnamed raws i = true ↔ reportedNameAt raws i = "<unknown>" := by
  rw [isUnnamed, reportedNameAt_eq]
  cases slugAt? raws i with
  | none => exact ⟨fun _ => rfl, fun _ => rfl⟩
  | some slug =>
    dsimp only
    rw [Bool.or_eq_true, beq_iff_eq, beq_iff_eq]
    by_cases hempty : slug = ""
    · rw [if_pos hempty]
      exact ⟨fun _ => rfl, fun _ => .inl hempty⟩
    · rw [if_neg hempty]
      exact ⟨fun h => h.resolve_left hempty, .inr⟩

/-- With a name of its own, a definition is reported under its slug. -/
theorem slugAt?_of_not_isUnnamed (h : isUnnamed raws i = false) :
    slugAt? raws i = some (reportedNameAt raws i) := by
  rw [isUnnamed] at h
  rw [reportedNameAt_eq]
  cases hslug : slugAt? raws i with
  | none => rw [hslug] at h; cases h
  | some slug =>
    rw [hslug] at h
    have hempty : slug ≠ "" := by
      rintro rfl
      cases h
    exact congrArg some (if_neg hempty).symm

/-- Definitions are reported under the same name if they have the same slug, or both none of their
own. -/
theorem reportedNameAt_eq_iff : reportedNameAt raws j = reportedNameAt raws i ↔
    (∃ slug, slugAt? raws i = some slug ∧ slugAt? raws j = some slug) ∨
      (isUnnamed raws i = true ∧ isUnnamed raws j = true) := by
  constructor
  · intro h
    cases hi : isUnnamed raws i with
    | true => exact .inr ⟨rfl, isUnnamed_iff.2 (h.trans (isUnnamed_iff.1 hi))⟩
    | false =>
      have hj : isUnnamed raws j = false := by
        rw [Bool.eq_false_iff] at hi ⊢
        exact fun hj => hi (isUnnamed_iff.2 (h.symm.trans (isUnnamed_iff.1 hj)))
      exact .inl ⟨_, slugAt?_of_not_isUnnamed hi, h ▸ slugAt?_of_not_isUnnamed hj⟩
  · rintro (⟨slug, hi, hj⟩ | ⟨hi, hj⟩)
    · rw [reportedNameAt_eq, reportedNameAt_eq, hi, hj]
    · rw [isUnnamed_iff.1 hi, isUnnamed_iff.1 hj]

/-- A name is reported before if a slug is repeated, or the lack of one. -/
theorem exists_reportedNameAt_iff : (∃ j < i, reportedNameAt raws j = reportedNameAt raws i) ↔
    repeatsName raws i = true := by
  have hslug : repeatsSlug raws i = true ↔
      ∃ j < i, ∃ slug, slugAt? raws i = some slug ∧ slugAt? raws j = some slug := by
    rw [repeatsSlug]
    cases slugAt? raws i with
    | none => simp
    | some slug => simp
  have hunnamed : repeatsUnnamed raws i = true ↔
      ∃ j < i, isUnnamed raws i = true ∧ isUnnamed raws j = true := by
    rw [repeatsUnnamed, Bool.and_eq_true, List.any_eq_true]
    constructor
    · rintro ⟨hi, j, hj, h⟩
      exact ⟨j, List.mem_range.1 hj, hi, h⟩
    · rintro ⟨j, hj, hi, h⟩
      exact ⟨hi, j, List.mem_range.2 hj, h⟩
  rw [repeatsName, Bool.or_eq_true, hslug, hunnamed]
  simp only [reportedNameAt_eq_iff]
  constructor
  · rintro ⟨j, hj, h | h⟩
    · exact .inl ⟨j, hj, h⟩
    · exact .inr ⟨j, hj, h⟩
  · rintro (⟨j, hj, h⟩ | ⟨j, hj, h⟩)
    · exact ⟨j, hj, .inl h⟩
    · exact ⟨j, hj, .inr h⟩

end Names

/-! ### One pass over the definitions -/

/-- Whether an observation is about a repeated slug of a kind. -/
def Observation.isDuplicate (kind : DefinitionKind) (o : Observation) : Bool :=
  o.finding.code == kind.duplicateCode

theorem filter_violations (kind other : DefinitionKind) (raw : Value) :
    (violations kind raw).filter (·.isDuplicate other) = [] := by
  rw [violations, List.filter_map, List.map_eq_nil_iff, List.filter_eq_nil_iff]
  intro issue _
  cases kind <;> cases other <;> exact Bool.false_ne_true

/-- What is observed of a model that is valid is about no repeated slug. -/
theorem filter_observeModel (components targets : List String) (m : ContentModel)
    (kind : DefinitionKind) :
    (observeModel components targets m).filter (·.isDuplicate kind) = [] := by
  have hfield : ∀ f,
      (observeField components targets m.slug f).filter (·.isDuplicate kind) = [] := by
    intro f
    rw [observeField]
    split
    · cases kind <;> rfl
    · split
      · split <;> cases kind <;> rfl
      · split <;> cases kind <;> rfl
      · rfl
  rw [observeModel, List.filter_append, List.filter_flatMap,
    List.flatMap_eq_nil_iff.2 fun f _ => hfield f, List.nil_append]
  split
  · split
    · rfl
    · cases kind <;> rfl
  · rfl

section Pass

variable {kind : DefinitionKind} {raws : List Value}

/-- From any position on, if the names reported before it are remembered, the repetitions observed
are those of each position. -/
theorem filter_observeAll {rest : List Value} {i : Nat} {seen : List String}
    (hrest : raws.drop i = rest)
    (hseen : ∀ name, name ∈ seen ↔ ∃ j < i, reportedNameAt raws j = name) :
    (observeAll kind seen rest).filter (·.isDuplicate kind) =
      ((List.range' i rest.length).filter (repeatsName raws)).map
        fun i => .duplicateSlug kind (reportedNameAt raws i) := by
  induction rest generalizing i seen with
  | nil => rfl
  | cons raw rest ih =>
    have hname : reportedName raw = reportedNameAt raws i := by
      have hget : raws[i]? = some raw := by
        rw [← List.head?_drop, hrest, List.head?_cons]
      rw [reportedNameAt, List.getD_eq_getElem?_getD, hget, Option.getD_some]
    have hrest' : raws.drop (i + 1) = rest := by
      rw [← List.drop_drop, hrest, List.drop_one, List.tail_cons]
    have hseen' : ∀ name, name ∈ reportedNameAt raws i :: seen ↔
        ∃ j < i + 1, reportedNameAt raws j = name := by
      intro name
      rw [List.mem_cons, hseen]
      constructor
      · rintro (rfl | ⟨j, hj, h⟩)
        · exact ⟨i, Nat.lt_succ_self i, rfl⟩
        · exact ⟨j, Nat.lt_succ_of_lt hj, h⟩
      · rintro ⟨j, hj, h⟩
        rcases Nat.lt_succ_iff_lt_or_eq.1 hj with hj | rfl
        · exact .inr ⟨j, hj, h⟩
        · exact .inl h.symm
    rw [observeAll, hname, List.filter_append, List.filter_append, filter_violations,
      List.nil_append, ih hrest' hseen', List.length_cons, List.range'_succ]
    by_cases hrepeats : repeatsName raws i = true
    · rw [if_pos ((hseen _).2 (exists_reportedNameAt_iff.2 hrepeats)),
        List.filter_cons_of_pos hrepeats, List.map_cons]
      cases kind <;> rfl
    · rw [if_neg (mt (hseen _).1 (mt exists_reportedNameAt_iff.1 hrepeats)),
        List.filter_cons_of_neg hrepeats]
      rfl

/-- The repetitions observed among all definitions of a kind are those of each position. -/
theorem filter_observeAll_nil (kind : DefinitionKind) (raws : List Value) :
    (observeAll kind [] raws).filter (·.isDuplicate kind) =
      ((List.range raws.length).filter (repeatsName raws)).map
        fun i => .duplicateSlug kind (reportedNameAt raws i) := by
  rw [List.range_eq_range']
  refine filter_observeAll rfl fun name => ⟨fun h => (List.not_mem_nil h).elim, ?_⟩
  rintro ⟨j, hj, -⟩
  exact (Nat.not_lt_zero j hj).elim

theorem filter_observeAll_of_ne {other : DefinitionKind} (h : other ≠ kind) (seen : List String)
    (raws : List Value) : (observeAll other seen raws).filter (·.isDuplicate kind) = [] := by
  induction raws generalizing seen with
  | nil => rfl
  | cons raw raws ih =>
    rw [observeAll, List.filter_append, List.filter_append, filter_violations, ih, List.nil_append,
      List.append_nil]
    split
    · cases other <;> cases kind
      · exact absurd rfl h
      · rfl
      · rfl
      · exact absurd rfl h
    · rfl

/-- The repetitions observed are those of each position. -/
theorem filter_observeDefinitions (models components : List Value) (names : List String)
    (kind : DefinitionKind) :
    (observeDefinitions models components names).filter (·.isDuplicate kind) =
      ((List.range (kind.among models components).length).filter
        (repeatsName (kind.among models components))).map
          fun i => .duplicateSlug kind (reportedNameAt (kind.among models components) i) := by
  rw [observeDefinitions, List.filter_append, List.filter_append, List.filter_flatMap,
    List.flatMap_eq_nil_iff.2 fun m _ => filter_observeModel _ _ m kind, List.append_nil,
    ← filter_observeAll_nil]
  cases kind with
  | model =>
    rw [filter_observeAll_of_ne (by decide), List.nil_append]
    rfl
  | component =>
    rw [filter_observeAll_of_ne (show DefinitionKind.model ≠ .component by decide),
      List.append_nil]
    rfl

end Pass

/-! ### Reports -/

/-- A further test selects no more items exactly if what it selects is selected already. -/
theorem map_filter_or_eq_iff {α : Type} {p q : Nat → Bool} {l : List Nat} (f : Nat → α) :
    (l.filter fun i => p i || q i).map f = (l.filter p).map f ↔
      ∀ i ∈ l, q i = true → p i = true := by
  constructor
  · intro h i hi hq
    have hsub : (l.filter p).Sublist (l.filter fun i => p i || q i) :=
      List.monotone_filter_right l fun i hi => by rw [hi, Bool.true_or]
    have hlength : (l.filter p).length = (l.filter fun i => p i || q i).length := by
      simpa using (congrArg List.length h).symm
    have hmem : i ∈ l.filter fun i => p i || q i :=
      List.mem_filter.2 ⟨hi, by rw [hq, Bool.or_true]⟩
    rw [← hsub.eq_of_length hlength] at hmem
    exact (List.mem_filter.1 hmem).2
  · intro h
    refine congrArg (List.map f) (List.filter_congr fun i hi => ?_)
    cases hq : q i with
    | true => rw [h i hi hq, Bool.true_or]
    | false => rw [Bool.or_false]

/-- The findings about repeated slugs are one for each definition that repeats the slug of an
earlier one or, like an earlier one, lacks a slug to be reported under.  They are just those about
repeated slugs exactly if every definition without a slug, after another one, repeats a slug
nevertheless. -/
theorem duplicates_checkDefinitions (models components : List Value) (names : List String)
    (kind : DefinitionKind) :
    let raws := kind.among models components
    let told := (checkDefinitions models components names).filter (·.code == kind.duplicateCode)
    let finding := fun i => (Observation.duplicateSlug kind (reportedNameAt raws i)).finding
    told = ((List.range raws.length).filter
        fun i => repeatsSlug raws i || repeatsUnnamed raws i).map finding ∧
      (told = ((List.range raws.length).filter (repeatsSlug raws)).map finding ↔
        ∀ i < raws.length, repeatsUnnamed raws i = true → repeatsSlug raws i = true) := by
  intro raws told finding
  have htold : told = ((List.range raws.length).filter
      fun i => repeatsSlug raws i || repeatsUnnamed raws i).map finding := by
    have hobserved := congrArg (List.map (·.finding))
      (filter_observeDefinitions models components names kind)
    rw [List.map_map] at hobserved
    exact List.filter_map.trans hobserved
  refine ⟨htold, ?_⟩
  rw [htold, map_filter_or_eq_iff]
  simp only [List.mem_range]

/-- Two models without a slug. -/
def slugless : List Value := [.object [("name", .text "Post")], .object [("name", .text "Page")]]

/-- The second model without a slug is told to repeat one, although neither has a slug. -/
theorem not_duplicates_slugless :
    ((checkDefinitions slugless [] []).filter
      (·.code == DefinitionKind.model.duplicateCode)).map (·.message) =
        ["model slug \"<unknown>\" is declared more than once; the last one wins."] ∧
      (List.range slugless.length).filter (repeatsSlug slugless) = [] := by
  decide +kernel

end ContentSchema
