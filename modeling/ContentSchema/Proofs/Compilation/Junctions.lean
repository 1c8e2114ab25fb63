import ContentSchema.Proofs.Compilation.Fields
import ContentSchema.Proofs.Compilation.Whole
import ContentSchema.Run.Definitions

/-!
# Junctions of a compilation

Each relation from many rows to many asks for a junction (`ContentModel.junctions`).  The tables of
a compilation hold the first junction of each name and no other one (`junction_mem_tables_iff`).  A
name is put together from those of the two tables that are joined and leaves open where one ends and
the other begins, so that a junction is lost if another one of its name, between other tables or with
another action, came first (`ContentModel.first_junction_mem_tables`).
-/

namespace ContentSchema

/-! ### Junctions -/

/-- What a relation from many rows to many asks for. -/
structure Junction where
  /-- The table of the model. -/
  owner : String
  /-- The table that the relation leads to. -/
  target : String
  /-- What happens to the rows of the junction when one of the owner is deleted. -/
  onDelete : ReferentialAction
deriving DecidableEq

namespace Junction

/-- The name of the junction's table. -/
def name (j : Junction) (settings : BuildSettings) : String :=
  Naming.junctionTableName j.owner j.target settings.convention

/-- The junction's table: a way back to the owner with the junction's own action, and one to the
target that always cascades. -/
def table (j : Junction) (settings : BuildSettings) : Table :=
  junctionTableOf j.owner j.target settings (.wayBack j.owner j.onDelete)
    (.wayBack j.target .cascade)

variable {settings : BuildSettings}

/-- The table tells the junction. -/
theorem table_injective : Function.Injective (table · settings) := by
  intro j k h
  have hcolumns := congrArg Table.columns h
  simp only [table, junctionTableOf, List.cons.injEq] at hcolumns
  obtain ⟨-, -, -, -, -, howner, htarget, -⟩ := hcolumns
  obtain ⟨owner, target, onDelete⟩ := j
  obtain rfl : owner = k.owner := congrArg Column.type howner
  obtain rfl : target = k.target := congrArg Column.type htarget
  have hrelation := congrArg Column.relation howner
  simp only [Column.wayBack, Option.some.injEq, Relation.mk.injEq] at hrelation
  obtain ⟨-, -, -, rfl, -⟩ := hrelation
  rfl

end Junction

namespace ContentModel

/-- The junction that a relation of the model asks for. -/
def junction (m : ContentModel) (settings : BuildSettings) (r : RelationConfig) : Junction :=
  ⟨m.tableName settings, settings.targetName r.target, r.cascade.ownerAction⟩

/-- The junctions that the relations of the model ask for, in the order of its fields. -/
def junctions (m : ContentModel) (settings : BuildSettings) : List Junction :=
  (m.storedFields.filterMap (·.manyToMany?)).map (m.junction settings)

end ContentModel

/-! ### The junctions among additions -/

section Additions

variable {m : ContentModel} {settings : BuildSettings} {components : Components}

theorem junction?_of_additionOf {owner : String} {f : Field} {addition : Option Addition}
    (h : m.additionOf settings components owner f = .ok addition) :
    addition.bind (·.junction?) = f.manyToMany?.map fun r =>
      (Junction.mk owner (settings.targetName r.target) r.cascade.ownerAction).table settings := by
  rcases additionOf_eq_ok h with
    ⟨-, hnone, rfl⟩ | ⟨c, hc, -, rfl⟩ | ⟨c, component, ts, hc, -, -, rfl⟩ | ⟨-, table, htable, rfl⟩
  · rw [hnone]
    rfl
  · rw [Field.manyToMany?_eq_none hc]
    rfl
  · rw [Field.manyToMany?_eq_none hc]
    rfl
  · obtain ⟨r, toOwner, toTarget, hr, htoOwner, htoTarget, rfl, -⟩ :=
      Field.junctionTable_eq_ok htable
    rw [hr, Column.backRelation_eq_ok htoOwner, Column.backRelation_eq_ok htoTarget]
    rfl

/-- The junction tables among the additions of a model are those of its junctions. -/
theorem junctionTables_of_additions {found : List Addition}
    (h : m.additions settings components = .ok found) :
    junctionTables found = (m.junctions settings).map (·.table settings) := by
  -- translation does not matter for junctions
  obtain ⟨translated, heq⟩ := m.effectiveSettings_eq settings
  have hfields : found.filterMap (·.junction?) = m.storedFields.filterMap fun f =>
      f.manyToMany?.map fun r => (m.junction settings r).table settings := by
    refine filterMap_additions h fun f addition h => ?_
    rw [junction?_of_additionOf h, heq]
    simp only [ContentModel.junction, ContentModel.tableName, heq]
    rfl
  rw [junctionTables, hfields, ContentModel.junctions, List.map_map, List.map_filterMap]
  rfl

end Additions

/-! ### Junctions among all tables -/

/-- No set of columns is unique, or none has an index. -/
def Table.OneSided (t : Table) : Prop := t.unique = [] ∨ t.indexes = []

section OneSided

variable {settings : BuildSettings} {owner : String} {t : Table} {ts : List Table}

theorem oneSided_translationTable {fields : List Field} {mapName : Option String}
    (h : translationTable owner fields settings mapName = .ok t) : t.OneSided := by
  obtain ⟨_, _, -, -, rfl⟩ := translationTable_eq_ok h
  exact Or.inr rfl

theorem ContentModel.oneSided_of_tables {m : ContentModel} {available : Option (List String)}
    (h : m.tables settings available = .ok ts) : ∀ t ∈ ts, t.OneSided := by
  obtain ⟨-, columns, -, ⟨-, rfl⟩ | ⟨-, t, ht, rfl⟩⟩ := tables_eq_ok h
  · rw [List.forall_mem_singleton]
    exact Or.inl rfl
  · rw [List.forall_mem_cons, List.forall_mem_singleton]
    exact ⟨Or.inl rfl, oneSided_translationTable ht⟩

theorem Component.oneSided_of_tables {c : Component} {e : Embedding}
    (h : c.tables e settings = .ok ts) : ∀ t ∈ ts, t.OneSided := by
  obtain ⟨-, columns, toOwner, -, -, ⟨-, rfl⟩ | ⟨-, t, ht, rfl⟩⟩ := tables_eq_ok h
  · rw [List.forall_mem_singleton]
    exact Or.inl rfl
  · rw [List.forall_mem_cons, List.forall_mem_singleton]
    exact ⟨Or.inl rfl, oneSided_translationTable ht⟩

theorem Junction.not_oneSided_table (j : Junction) (settings : BuildSettings) :
    ¬ (j.table settings).OneSided := by
  rintro (h | h) <;> cases h

end OneSided

section Compilation

variable {models : List ContentModel} {components : Components} {settings : BuildSettings}
  {compilation : Compilation} {m : ContentModel}

/-- The junctions that the models of a compilation ask for are found among its additions. -/
theorem flatMap_junctionTables {own : List (List Table)} {additions : List (List Addition)}
    (hown : compileOwn models components settings = .ok own)
    (hadditions : compileAdditions models components settings = .ok additions) :
    ((own.zip additions).flatMap fun part => junctionTables part.2) =
      (models.flatMap (·.junctions settings)).map (·.table settings) := by
  have hlength : additions.length ≤ own.length := by
    rw [← (mapM_eq_ok.1 hown).length_eq, ← (mapM_eq_ok.1 hadditions).length_eq]
  have htables : additions.map junctionTables =
      models.map fun m => (m.junctions settings).map (·.table settings) :=
    map_eq_map_of_forall₂ (mapM_eq_ok.1 hadditions) fun _ _ _ h => junctionTables_of_additions h
  calc (own.zip additions).flatMap (fun part => junctionTables part.2)
      = (((own.zip additions).map (·.2)).map junctionTables).flatten := by
        rw [List.map_map, List.flatMap_def]
        rfl
    _ = (models.map fun m => (m.junctions settings).map (·.table settings)).flatten := by
        rw [List.map_snd_zip hlength, htables]
    _ = _ := by
        rw [← List.flatMap_def, List.map_flatMap]

/-- The table of a junction is compiled exactly if it is the first one of its name. -/
theorem junction_mem_tables_iff (h : compileModels models components settings = .ok compilation)
    {j : Junction} : j.table settings ∈ compilation.tables ↔
      (models.flatMap (·.junctions settings)).find? (·.name settings == j.name settings) =
        some j := by
  obtain ⟨own, additions, hown, hadditions, rfl⟩ := compileModels_eq_ok.1 h
  -- no other table looks like that of a junction
  have hother : ¬ ∃ part ∈ own.zip additions, j.table settings ∈ part.1 ∨
      ∃ ts, .component ts ∈ part.2 ∧ j.table settings ∈ ts := by
    rintro ⟨⟨ownTables, found⟩, hpart, hmem⟩
    obtain ⟨hmemOwn, hmemFound⟩ := List.of_mem_zip hpart
    refine j.not_oneSided_table settings ?_
    rcases hmem with hmem | ⟨ts, hts, hmem⟩
    · obtain ⟨m, -, hm⟩ := exists_of_mem_mapM hown hmemOwn
      exact ContentModel.oneSided_of_tables hm _ hmem
    · obtain ⟨m, -, hm⟩ := exists_of_mem_mapM hadditions hmemFound
      obtain ⟨_, _, _, _, _, _, hts⟩ := exists_component_of_mem_additions hm hts
      exact Component.oneSided_of_tables hts _ hmem
  have hname : ((·.name == (j.table settings).name) ∘ fun k : Junction => k.table settings) =
      (·.name settings == j.name settings) := rfl
  rw [Compilation.tables, Compilation.ofParts, mem_groupTables_iff, or_iff_right hother,
    and_iff_right List.not_mem_nil, flatMap_junctionTables hown hadditions, List.find?_map, hname,
    Option.map_eq_some_iff]
  constructor
  · rintro ⟨k, hk, heq⟩
    obtain rfl := Junction.table_injective heq
    exact hk
  · exact fun hj => ⟨j, hj, rfl⟩

theorem ContentModel.junction_mem_junctions {f : Field} {r : RelationConfig}
    (hf : f ∈ m.storedFields) (hr : f.manyToMany? = some r) :
    m.junction settings r ∈ m.junctions settings :=
  List.mem_map_of_mem (List.mem_filterMap.2 ⟨f, hf, hr⟩)

/-- Of the junctions with the name of the one that a relation asks for, the first is compiled; that
of the relation is compiled exactly if it is the same, with the same two tables and the same
action. -/
theorem ContentModel.first_junction_mem_tables
    (h : compileModels models components settings = .ok compilation) (hm : m ∈ models) {f : Field}
    (hf : f ∈ m.storedFields) {r : RelationConfig} (hr : f.manyToMany? = some r) :
    ∃ first, (models.flatMap (·.junctions settings)).find?
        (·.name settings == (m.junction settings r).name settings) = some first ∧
      first.table settings ∈ compilation.tables ∧
      ((m.junction settings r).table settings ∈ compilation.tables ↔
        first = m.junction settings r) := by
  have hmem : m.junction settings r ∈ models.flatMap (·.junctions settings) :=
    List.mem_flatMap.2 ⟨m, hm, junction_mem_junctions hf hr⟩
  cases hfind : (models.flatMap (·.junctions settings)).find?
      (·.name settings == (m.junction settings r).name settings) with
  | none => exact absurd (beq_self_eq_true _) (List.find?_eq_none.1 hfind _ hmem)
  | some first =>
    have hname : first.name settings = (m.junction settings r).name settings := by
      simpa using List.find?_some hfind
    refine ⟨first, rfl, (junction_mem_tables_iff h).2 ?_, ?_⟩
    · rw [hname, hfind]
    · rw [junction_mem_tables_iff h, hfind, Option.some.injEq]

/-- The junctions of all relations are compiled exactly if no two different ones have one name. -/
theorem junctions_compiled_iff (h : compileModels models components settings = .ok compilation) :
    (∀ j ∈ models.flatMap (·.junctions settings), j.table settings ∈ compilation.tables) ↔
      ∀ j ∈ models.flatMap (·.junctions settings), ∀ k ∈ models.flatMap (·.junctions settings),
        j.name settings = k.name settings → j = k := by
  constructor
  · intro hall j hj k hk hname
    have hfirst := (junction_mem_tables_iff h).1 (hall j hj)
    rw [hname, (junction_mem_tables_iff h).1 (hall k hk)] at hfirst
    exact (Option.some.inj hfirst).symm
  · intro hinjective j hj
    rw [junction_mem_tables_iff h]
    cases hfind : (models.flatMap (·.junctions settings)).find?
        (·.name settings == j.name settings) with
    | none => exact absurd (beq_self_eq_true _) (List.find?_eq_none.1 hfind j hj)
    | some first =>
      rw [hinjective first (List.mem_of_find?_eq_some hfind) j hj
        (by simpa using List.find?_some hfind)]

end Compilation

/-- Posts with topics, which are tags of categories, and categories of posts with tags. -/
def rawTopics : RawDefinitions where
  models := [
    .object [
      ("slug", .text "post"), ("name", .text "Post"),
      ("fields", .list [
        .object [("key", .text "topics"), ("label", .text "Topics"), ("type", .text "relation"),
          ("config", .object [
            ("relationType", .text "manyToMany"), ("targetModel", .text "category-tag")])]])],
    .object [
      ("slug", .text "post-category"), ("name", .text "Post-Category"),
      ("fields", .list [
        .object [("key", .text "tags"), ("label", .text "Tags"), ("type", .text "relation"),
          ("config", .object [
            ("relationType", .text "manyToMany"), ("targetModel", .text "tag")])]])]]
  components := []
  warnings := []

/-- Both junctions are called `PostCategoryTag`, and the first one has other columns. -/
theorem lost_tags : ∃ d compilation, rawTopics.validate = .ok d ∧
    compileModels d.models d.components .standard = .ok compilation ∧
    ∃ m ∈ d.models, ∃ f ∈ m.storedFields, ∃ r, f.manyToMany? = some r ∧
      (d.models.flatMap (·.junctions .standard)).find?
        (·.name .standard == (m.junction .standard r).name .standard) ≠
          some (m.junction .standard r) := by
  refine ⟨_, _, rfl, rfl, _, List.mem_cons_of_mem _ List.mem_cons_self, _, List.mem_cons_self, _,
    rfl, ?_⟩
  decide +kernel

/-- The tags of the second model have no junction. -/
theorem not_junction_mem_tables_rawTopics : ∃ d compilation, rawTopics.validate = .ok d ∧
    compileModels d.models d.components .standard = .ok compilation ∧
    ∃ m ∈ d.models, ∃ f ∈ m.storedFields, ∃ r, f.manyToMany? = some r ∧
      (m.junction .standard r).table .standard ∉ compilation.tables := by
  obtain ⟨d, compilation, hd, hcompilation, m, hm, f, hf, r, hr, hlost⟩ := lost_tags
  obtain ⟨first, hfirst, -, hiff⟩ :=
    ContentModel.first_junction_mem_tables hcompilation hm hf hr
  refine ⟨d, compilation, hd, hcompilation, m, hm, f, hf, r, hr, fun hmem => hlost ?_⟩
  rw [hfirst, hiff.1 hmem]

end ContentSchema
