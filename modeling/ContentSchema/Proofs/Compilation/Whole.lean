import ContentSchema.Proofs.Compilation.Merging
import ContentSchema.Proofs.Compilation.Tables

/-!
# All compiled tables

Which tables a compilation keeps (`mem_groupTables_iff`), and where they come from (`Made`).
-/

namespace ContentSchema

/-! ### Additions -/

/-- The table of an addition that is a junction. -/
def Addition.junction? : Addition → Option Table
  | .junction table => some table
  | _ => none

/-- The junction tables among additions. -/
def junctionTables (additions : List Addition) : List Table :=
  additions.filterMap (·.junction?)

theorem mem_junctionTables {additions : List Addition} {t : Table} :
    t ∈ junctionTables additions ↔ .junction t ∈ additions := by
  rw [junctionTables, List.mem_filterMap]
  constructor
  · rintro ⟨a, ha, hjunction⟩
    cases a with
    | junction table =>
      cases hjunction
      exact ha
    | component tables => cases hjunction
    | missing warning => cases hjunction
  · exact fun h => ⟨_, h, rfl⟩

section Kept

variable {seen : List String} {t : Table}

theorem mem_keepAdditions_snd {additions : List Addition} {name : String} :
    name ∈ (keepAdditions seen additions).2 ↔
      name ∈ seen ∨ name ∈ (junctionTables additions).map (·.name) := by
  induction additions generalizing seen with
  | nil => simp [keepAdditions, junctionTables]
  | cons a additions ih =>
    cases a with
    | component tables => exact ih
    | missing warning => exact ih
    | junction table =>
      have hcons : junctionTables (.junction table :: additions) =
          table :: junctionTables additions := rfl
      rw [hcons, List.map_cons, List.mem_cons, keepAdditions]
      split
      · rename_i hseen
        rw [ih]
        constructor
        · rintro (h | h)
          · exact Or.inl h
          · exact Or.inr (Or.inr h)
        · rintro (h | rfl | h)
          · exact Or.inl h
          · exact Or.inl hseen
          · exact Or.inr h
      · rw [ih, List.mem_cons, or_left_comm, or_assoc, or_left_comm]

/-- Of the additions, the tables of components are kept and the first junction of each name that was
not seen. -/
theorem mem_keepAdditions_iff {additions : List Addition} :
    t ∈ (keepAdditions seen additions).1 ↔ (∃ ts, .component ts ∈ additions ∧ t ∈ ts) ∨
      (t.name ∉ seen ∧ (junctionTables additions).find? (·.name == t.name) = some t) := by
  induction additions generalizing seen with
  | nil => simp [keepAdditions, junctionTables]
  | cons a additions ih =>
    cases a with
    | component tables =>
      have hkeep : (keepAdditions seen (.component tables :: additions)).1 =
          tables ++ (keepAdditions seen additions).1 := rfl
      have htables : junctionTables (.component tables :: additions) =
          junctionTables additions := rfl
      rw [hkeep, htables, List.mem_append, ih, ← or_assoc]
      simp
    | missing warning =>
      have hkeep : (keepAdditions seen (.missing warning :: additions)).1 =
          (keepAdditions seen additions).1 := rfl
      have htables : junctionTables (.missing warning :: additions) =
          junctionTables additions := rfl
      rw [hkeep, htables, ih]
      simp
    | junction table =>
      have htables : junctionTables (.junction table :: additions) =
          table :: junctionTables additions := rfl
      have hcomponents : (∃ ts, .component ts ∈ Addition.junction table :: additions ∧ t ∈ ts) ↔
          ∃ ts, .component ts ∈ additions ∧ t ∈ ts := by
        simp
      rw [hcomponents, htables, List.find?_cons, keepAdditions]
      by_cases hname : table.name = t.name
      · -- the first junction of this name is the one at hand
        rw [hname, beq_self_eq_true]
        split
        · rename_i hseen
          rw [ih]
          simp [hseen]
        · rename_i hseen
          rw [List.mem_cons, ih]
          simp [hseen, or_comm, eq_comm]
      · rw [beq_false_of_ne hname]
        have hne : t ≠ table := fun h => hname (h ▸ rfl)
        split
        · exact ih
        · rw [List.mem_cons, ih, List.mem_cons, not_or]
          simp [hne, Ne.symm hname]

/-- Of the parts of a compilation, the tables of models and components are kept and the first
junction of each name that was not seen. -/
theorem mem_groupTables_iff {parts : List (List Table × List Addition)} :
    t ∈ (groupTables seen parts).flatMap (fun g => g.own ++ g.derived) ↔
      (∃ part ∈ parts, t ∈ part.1 ∨ ∃ ts, .component ts ∈ part.2 ∧ t ∈ ts) ∨
      (t.name ∉ seen ∧
        (parts.flatMap fun part => junctionTables part.2).find? (·.name == t.name) = some t) := by
  induction parts generalizing seen with
  | nil => simp [groupTables]
  | cons part parts ih =>
    obtain ⟨own, additions⟩ := part
    have hcons : (groupTables seen ((own, additions) :: parts)).flatMap
        (fun g => g.own ++ g.derived) = (own ++ (keepAdditions seen additions).1) ++
          (groupTables (keepAdditions seen additions).2 parts).flatMap
            fun g => g.own ++ g.derived := rfl
    rw [hcons, List.mem_append, List.mem_append, ih, mem_keepAdditions_iff, mem_keepAdditions_snd,
      List.flatMap_cons, List.find?_append, List.exists_mem_cons_iff]
    -- a junction of a later part is the first of its name if the earlier one has none of it
    cases hfind : (junctionTables additions).find? (·.name == t.name) with
    | some first =>
      have hmem : t.name ∈ (junctionTables additions).map (·.name) :=
        List.mem_map.2 ⟨first, List.mem_of_find?_eq_some hfind, by
          simpa using List.find?_some hfind⟩
      simp only [hmem, or_true, not_true_eq_false, false_and, or_false, Option.some_or]
      rw [← or_assoc, or_right_comm]
    | none =>
      have hmem : t.name ∉ (junctionTables additions).map (·.name) := by
        intro h
        obtain ⟨u, hu, hname⟩ := List.mem_map.1 h
        exact List.find?_eq_none.1 hfind u hu (by simp [hname])
      simp only [hmem, or_false, reduceCtorEq, and_false, Option.none_or]
      rw [← or_assoc]

end Kept

/-! ### Where tables come from -/

namespace ContentModel

/-- The name of the model's base table. -/
def tableName (m : ContentModel) (settings : BuildSettings) : String :=
  (m.effectiveSettings settings).tableName m.slug

theorem tableName_eq (m : ContentModel) (settings : BuildSettings) :
    m.tableName settings = settings.tableName m.slug := by
  obtain ⟨translated, heq⟩ := m.effectiveSettings_eq settings
  rw [tableName, heq]
  rfl

/-- How a field of the model embeds a component. -/
def embedding (m : ContentModel) (settings : BuildSettings) (f : Field) (c : ComponentConfig) :
    Embedding :=
  ⟨m.tableName settings, f.key, c.repeatable, c.context⟩

end ContentModel

/-- A table is made for a model, for a component that one of its fields embeds, or for a relation
from many to many. -/
inductive Made (models : List ContentModel) (components : Components) (settings : BuildSettings) :
    Table → Prop where
  /-- The table is one of a model. -/
  | model {m : ContentModel} {ts : List Table} {t : Table} (hm : m ∈ models)
    (hts : m.tables settings (some components.slugs) = .ok ts) (ht : t ∈ ts) :
    Made models components settings t
  /-- The table is one of an embedded component. -/
  | component {m : ContentModel} {f : Field} {c : ComponentConfig} {component : Component}
    {ts : List Table} {t : Table} (hm : m ∈ models) (hf : f ∈ m.storedFields)
    (hc : f.component? = some c) (hfind : components.find? c.slug = some component)
    (hts : component.tables (m.embedding settings f c) (m.effectiveSettings settings) = .ok ts)
    (ht : t ∈ ts) : Made models components settings t
  /-- The table joins the two ends of a relation. -/
  | junction {m : ContentModel} {f : Field} {t : Table} (hm : m ∈ models) (hf : f ∈ m.storedFields)
    (ht : f.junctionTable (m.tableName settings) (m.effectiveSettings settings) = .ok t) :
    Made models components settings t

section Made

variable {models : List ContentModel} {components : Components} {settings : BuildSettings}
  {compilation : Compilation} {m : ContentModel} {t : Table}

theorem mem_of_mem_additions {found : List Addition} {a : Addition}
    (h : m.additions settings components = .ok found) (ha : a ∈ found) :
    ∃ f ∈ m.storedFields, m.additionOf (m.effectiveSettings settings) components
      (m.tableName settings) f = .ok (some a) := by
  obtain ⟨all, hall, h⟩ := bind_eq_ok.1 h
  cases h
  obtain ⟨b, hb, hid⟩ := List.mem_filterMap.1 ha
  cases hid
  exact exists_of_mem_mapM hall hb

theorem mem_additions_of_mem {found : List Addition} {f : Field} {a : Addition}
    (h : m.additions settings components = .ok found) (hf : f ∈ m.storedFields)
    (ha : m.additionOf (m.effectiveSettings settings) components (m.tableName settings) f =
      .ok (some a)) : a ∈ found := by
  obtain ⟨all, hall, h⟩ := bind_eq_ok.1 h
  cases h
  obtain ⟨b, hb, hfb⟩ := exists_of_mapM_of_mem hall hf
  rw [← ContentModel.tableName, ha] at hfb
  cases hfb
  exact List.mem_filterMap.2 ⟨_, hb, rfl⟩

/-- What is picked from the additions of a model is told by its fields, if that of each field is. -/
theorem filterMap_additions {β : Type} {p : Addition → Option β} {q : Field → Option β}
    {found : List Addition} (h : m.additions settings components = .ok found)
    (hq : ∀ f addition, m.additionOf (m.effectiveSettings settings) components
      (m.tableName settings) f = .ok addition → addition.bind p = q f) :
    found.filterMap p = m.storedFields.filterMap q := by
  obtain ⟨all, hall, h⟩ := bind_eq_ok.1 h
  cases h
  have hfields : all.map (·.bind p) = m.storedFields.map q :=
    map_eq_map_of_forall₂ (mapM_eq_ok.1 hall) fun f _ addition h => hq f addition h
  calc (all.filterMap id).filterMap p
      = (all.map (·.bind p)).filterMap id := by
        rw [List.filterMap_filterMap, List.filterMap_map]
        rfl
    _ = m.storedFields.filterMap q := by
        rw [hfields, List.filterMap_map]
        rfl

/-- A field adds nothing, the note that its component is missing, the tables of its component or a
junction. -/
theorem additionOf_eq_ok {owner : String} {f : Field} {addition : Option Addition}
    (h : m.additionOf settings components owner f = .ok addition) :
    (f.component? = none ∧ f.manyToMany? = none ∧ addition = none) ∨
      (∃ c, f.component? = some c ∧ components.find? c.slug = none ∧
        addition = some (.missing (.missingComponent m.slug f.key c.slug))) ∨
      (∃ c component ts, f.component? = some c ∧ components.find? c.slug = some component ∧
        component.tables ⟨owner, f.key, c.repeatable, c.context⟩ settings = .ok ts ∧
        addition = some (.component ts)) ∨
      (f.component? = none ∧ ∃ t, f.junctionTable owner settings = .ok t ∧
        addition = some (.junction t)) := by
  rw [ContentModel.additionOf.eq_def] at h
  split at h
  · rename_i c hc
    split at h
    · rename_i hfind
      cases h
      exact Or.inr (Or.inl ⟨c, hc, hfind, rfl⟩)
    · rename_i component hfind
      obtain ⟨ts, hts, h⟩ := bind_eq_ok.1 h
      cases h
      exact Or.inr (Or.inr (Or.inl ⟨c, component, ts, hc, hfind, hts, rfl⟩))
  · rename_i hc
    split at h
    · obtain ⟨table, htable, h⟩ := bind_eq_ok.1 h
      cases h
      exact Or.inr (Or.inr (Or.inr ⟨hc, table, htable, rfl⟩))
    · rename_i hnone
      cases h
      exact Or.inl ⟨hc, Option.not_isSome_iff_eq_none.1 hnone, rfl⟩

/-- Tables of a component among the additions are those of one that a field embeds. -/
theorem exists_component_of_mem_additions {found : List Addition} {ts : List Table}
    (h : m.additions settings components = .ok found) (hts : .component ts ∈ found) :
    ∃ f ∈ m.storedFields, ∃ c component, f.component? = some c ∧
      components.find? c.slug = some component ∧
      component.tables (m.embedding settings f c) (m.effectiveSettings settings) = .ok ts := by
  obtain ⟨f, hf, haddition⟩ := mem_of_mem_additions h hts
  rcases additionOf_eq_ok haddition with
    ⟨-, -, hnone⟩ | ⟨_, -, -, hmissing⟩ | ⟨c, component, ts', hc, hfind, hts', hsome⟩ |
      ⟨-, _, -, hjunction⟩
  · cases hnone
  · cases hmissing
  · cases hsome
    exact ⟨f, hf, c, component, hc, hfind, hts'⟩
  · cases hjunction

/-- A junction among the additions is that of a relation of the model. -/
theorem exists_junction_of_mem_additions {found : List Addition}
    (h : m.additions settings components = .ok found) (ht : .junction t ∈ found) :
    ∃ f ∈ m.storedFields,
      f.junctionTable (m.tableName settings) (m.effectiveSettings settings) = .ok t := by
  obtain ⟨f, hf, haddition⟩ := mem_of_mem_additions h ht
  rcases additionOf_eq_ok haddition with
    ⟨-, -, hnone⟩ | ⟨_, -, -, hmissing⟩ | ⟨_, _, _, -, -, -, hcomponent⟩ |
      ⟨-, table, htable, hsome⟩
  · cases hnone
  · cases hmissing
  · cases hcomponent
  · cases hsome
    exact ⟨f, hf, htable⟩

theorem compileModels_eq_ok :
    compileModels models components settings = .ok compilation ↔
      ∃ own additions, compileOwn models components settings = .ok own ∧
        compileAdditions models components settings = .ok additions ∧
        compilation = .ofParts models own additions := by
  rw [compileModels, bind_eq_ok]
  constructor
  · rintro ⟨own, hown, h⟩
    obtain ⟨additions, hadditions, h⟩ := bind_eq_ok.1 h
    cases h
    exact ⟨own, additions, hown, hadditions, rfl⟩
  · rintro ⟨own, additions, hown, hadditions, rfl⟩
    exact ⟨own, hown, bind_eq_ok.2 ⟨additions, hadditions, rfl⟩⟩

/-- Each table of a compilation is made for a model, a component or a relation. -/
theorem made_of_mem_tables (h : compileModels models components settings = .ok compilation)
    (ht : t ∈ compilation.tables) : Made models components settings t := by
  obtain ⟨own, additions, hown, hadditions, rfl⟩ := compileModels_eq_ok.1 h
  rcases mem_groupTables_iff.1 ht with ⟨⟨ownTables, found⟩, hpart, ht⟩ | ⟨-, hfind⟩
  · obtain ⟨hmemOwn, hmemFound⟩ := List.of_mem_zip hpart
    rcases ht with ht | ⟨ts, hts, ht⟩
    · obtain ⟨m, hm, hmodel⟩ := exists_of_mem_mapM hown hmemOwn
      exact .model hm hmodel ht
    · obtain ⟨m, hm, hfound⟩ := exists_of_mem_mapM hadditions hmemFound
      obtain ⟨f, hf, c, component, hc, hfind, hts⟩ := exists_component_of_mem_additions hfound hts
      exact .component hm hf hc hfind hts ht
  · obtain ⟨⟨ownTables, found⟩, hpart, ht⟩ := List.mem_flatMap.1 (List.mem_of_find?_eq_some hfind)
    obtain ⟨m, hm, hfound⟩ := exists_of_mem_mapM hadditions (List.of_mem_zip hpart).2
    obtain ⟨f, hf, htable⟩ := exists_junction_of_mem_additions hfound (mem_junctionTables.1 ht)
    exact .junction hm hf htable

/-- The tables of each model and those of its components are all in the compilation. -/
theorem tables_subset_of_mem (h : compileModels models components settings = .ok compilation)
    (hm : m ∈ models) :
    (∃ ts, m.tables settings (some components.slugs) = .ok ts ∧ ts ⊆ compilation.tables) ∧
    ∀ f ∈ m.storedFields, ∀ c, f.component? = some c →
      ∀ component, components.find? c.slug = some component →
        ∃ ts, component.tables (m.embedding settings f c) (m.effectiveSettings settings) = .ok ts ∧
          ts ⊆ compilation.tables := by
  obtain ⟨own, additions, hown, hadditions, rfl⟩ := compileModels_eq_ok.1 h
  obtain ⟨ts, found, hzip, hts, hfound⟩ :=
    exists_mem_zip (mapM_eq_ok.1 hown) (mapM_eq_ok.1 hadditions) hm
  have hsub : ∀ t, (t ∈ ts ∨ ∃ us, .component us ∈ found ∧ t ∈ us) →
      t ∈ (Compilation.ofParts models own additions).tables := fun t ht =>
    mem_groupTables_iff.2 (Or.inl ⟨_, hzip, ht⟩)
  refine ⟨⟨ts, hts, fun t ht => hsub t (Or.inl ht)⟩, fun f hf c hc component hfind => ?_⟩
  obtain ⟨all, hall, -⟩ := bind_eq_ok.1 hfound
  obtain ⟨addition, -, haddition⟩ := exists_of_mapM_of_mem hall hf
  have hfield := haddition
  rw [ContentModel.additionOf, hc] at haddition
  simp only [hfind] at haddition
  obtain ⟨tables, htables, haddition⟩ := bind_eq_ok.1 haddition
  cases haddition
  have hmem := mem_additions_of_mem hfound hf hfield
  exact ⟨tables, htables, fun t ht => hsub t (Or.inr ⟨tables, hmem, ht⟩)⟩

end Made

end ContentSchema
