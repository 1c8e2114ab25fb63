import ContentSchema.Proofs.Compilation.Instances
import ContentSchema.Proofs.Compilation.Junctions
import ContentSchema.Proofs.Compilation.Wiring
import ContentSchema.Proofs.Run.Definitions

/-!
# Joined tables

Two tables are joined by a third one that has a key to each of them and holds no pair of rows twice
(`Table.Joins`).  Only relations of models are joined in this way (`exists_joins_iff`).  A relation
from many to many of a component is a list column on the instances of the component and nothing
else: the instances are joined to its target only if a model, whose table has a key of the same
name, asks for it (`Component.joins_iff_of_manyToMany`).
-/

namespace ContentSchema

/-- The table has a key to each of two tables, and a pair of keys occurs only once. -/
structure Table.Joins (t : Table) (one other : String) : Prop where
  /-- There is a key to the one table. -/
  first : Naming.foreignKeyName one ∈ t.columnNames
  /-- There is a key to the other table. -/
  second : Naming.foreignKeyName other ∈ t.columnNames
  /-- The two keys are unique together, in either order. -/
  unique : [Naming.foreignKeyName one, Naming.foreignKeyName other] ∈ t.unique ∨
    [Naming.foreignKeyName other, Naming.foreignKeyName one] ∈ t.unique

/-- The junction has the keys of two tables, in either order. -/
def Junction.IsBetween (j : Junction) (one other : String) : Prop :=
  (Naming.foreignKeyName j.owner = Naming.foreignKeyName one ∧
      Naming.foreignKeyName j.target = Naming.foreignKeyName other) ∨
    (Naming.foreignKeyName j.owner = Naming.foreignKeyName other ∧
      Naming.foreignKeyName j.target = Naming.foreignKeyName one)

instance (j : Junction) (one other : String) : Decidable (j.IsBetween one other) :=
  inferInstanceAs (Decidable (_ ∨ _))

/-! ### Which tables join others -/

section Joins

variable {models : List ContentModel} {components : Components} {settings : BuildSettings}
  {compilation : Compilation} {t : Table} {one other owner : String} {ts : List Table}

/-- A table without pairs that are unique joins nothing. -/
theorem Table.not_joins_of_unique_eq_nil (h : t.unique = []) : ¬ t.Joins one other := by
  rintro ⟨-, -, hmem | hmem⟩ <;> simp [h] at hmem

/-- A translation table does not join its owner to anything, as the language is no key. -/
theorem not_joins_translationTable {fields : List Field} {mapName : Option String}
    (h : translationTable owner fields settings mapName = .ok t) : ¬ t.Joins one other := by
  obtain ⟨columns, toOwner, -, -, rfl⟩ := translationTable_eq_ok h
  have hlang : ∀ a b, [a, Naming.foreignKeyName b] ∉ [[Naming.foreignKeyName owner, "lang"]] := by
    intro a b hmem
    have hpair := List.mem_singleton.1 hmem
    simp only [List.cons.injEq, and_true] at hpair
    exact Field.append_id_ne (by decide) hpair.2
  rintro ⟨-, -, hmem | hmem⟩
  · exact hlang _ _ hmem
  · exact hlang _ _ hmem

theorem ContentModel.not_joins_of_tables {m : ContentModel} {available : Option (List String)}
    (h : m.tables settings available = .ok ts) : ∀ t ∈ ts, ¬ t.Joins one other := by
  obtain ⟨-, columns, -, ⟨-, rfl⟩ | ⟨-, u, hu, rfl⟩⟩ := tables_eq_ok h
  · exact List.forall_mem_singleton.2 (Table.not_joins_of_unique_eq_nil rfl)
  · rw [List.forall_mem_cons, List.forall_mem_singleton]
    exact ⟨Table.not_joins_of_unique_eq_nil rfl, not_joins_translationTable hu⟩

theorem Component.not_joins_of_tables {c : Component} {e : Embedding}
    (h : c.tables e settings = .ok ts) : ∀ t ∈ ts, ¬ t.Joins one other := by
  obtain ⟨-, columns, toOwner, -, -, ⟨-, rfl⟩ | ⟨-, u, hu, rfl⟩⟩ := tables_eq_ok h
  · exact List.forall_mem_singleton.2 (Table.not_joins_of_unique_eq_nil rfl)
  · rw [List.forall_mem_cons, List.forall_mem_singleton]
    exact ⟨Table.not_joins_of_unique_eq_nil rfl, not_joins_translationTable hu⟩

/-- The table of a junction joins two tables exactly if it has their keys. -/
theorem Junction.joins_table_iff (j : Junction) :
    (j.table settings).Joins one other ↔ j.IsBetween one other := by
  have hpair : ∀ a b, [a, b] ∈ (j.table settings).unique ↔
      Naming.foreignKeyName j.owner = a ∧ Naming.foreignKeyName j.target = b := by
    intro a b
    simp [table, junctionTableOf, eq_comm]
  have howner : Naming.foreignKeyName j.owner ∈ (j.table settings).columnNames := by
    simp [Table.columnNames, table, junctionTableOf, Column.string, Column.bare]
  have htarget : Naming.foreignKeyName j.target ∈ (j.table settings).columnNames := by
    simp [Table.columnNames, table, junctionTableOf, Column.string, Column.bare]
  constructor
  · rintro ⟨-, -, h | h⟩
    · exact Or.inl ((hpair _ _).1 h)
    · exact Or.inr ((hpair _ _).1 h)
  · rintro (h | h)
    · exact ⟨h.1 ▸ howner, h.2 ▸ htarget, Or.inl ((hpair _ _).2 h)⟩
    · exact ⟨h.2 ▸ htarget, h.1 ▸ howner, Or.inr ((hpair _ _).2 h)⟩

/-- The table that is made for a relation of a model is that of its junction, as translation does
not matter. -/
theorem ContentModel.exists_junction_of_junctionTable {m : ContentModel} {f : Field}
    (h : f.junctionTable (m.tableName settings) (m.effectiveSettings settings) = .ok t) :
    ∃ r, f.manyToMany? = some r ∧ t = (m.junction settings r).table settings := by
  obtain ⟨r, toOwner, toTarget, hr, htoOwner, htoTarget, rfl, -⟩ := Field.junctionTable_eq_ok h
  obtain rfl := Column.backRelation_eq_ok htoOwner
  obtain rfl := Column.backRelation_eq_ok htoTarget
  obtain ⟨translated, heq⟩ := m.effectiveSettings_eq settings
  refine ⟨r, hr, ?_⟩
  rw [heq]
  rfl

/-- Two tables are joined exactly if a model asks for a junction with their keys, and no other one
of its name came first. -/
theorem exists_joins_iff (h : compileModels models components settings = .ok compilation) :
    (∃ t ∈ compilation.tables, t.Joins one other) ↔
      ∃ j, (models.flatMap (·.junctions settings)).find? (·.name settings == j.name settings) =
        some j ∧ j.IsBetween one other := by
  constructor
  · rintro ⟨t, ht, hjoins⟩
    cases made_of_mem_tables h ht with
    | model _ hts hmem => exact absurd hjoins (ContentModel.not_joins_of_tables hts t hmem)
    | component _ _ _ _ hts hmem => exact absurd hjoins (Component.not_joins_of_tables hts t hmem)
    | junction _ _ htable =>
      obtain ⟨r, -, rfl⟩ := ContentModel.exists_junction_of_junctionTable htable
      exact ⟨_, (junction_mem_tables_iff h).1 ht, (Junction.joins_table_iff _).1 hjoins⟩
  · rintro ⟨j, hj, hbetween⟩
    exact ⟨_, (junction_mem_tables_iff h).2 hj, j.joins_table_iff.2 hbetween⟩

end Joins

/-! ### Relations of components -/

section Components

variable {models : List ContentModel} {components : Components} {settings : BuildSettings}
  {compilation : Compilation} {m : ContentModel} {f g : Field} {c : ComponentConfig}
  {component : Component} {r : RelationConfig}

/-- A relation from many to many is a list column of the type of its target. -/
theorem Field.column_of_manyToMany {column : Column} (htype : f.type = .relation)
    (hr : f.manyToMany? = some r) (h : f.column settings = .ok column) :
    column.name = f.key ∧ column.type = settings.targetName r.target ∧ column.isList = true := by
  obtain ⟨hrelation, hcardinality⟩ := manyToMany?_eq_some.1 hr
  have hproposed : f.proposedColumn f.type settings =
      .ok (f.listColumn (settings.targetName r.target)) := by
    rw [htype, proposedColumn, hrelation]
    simp only [relationColumn, hcardinality]
  obtain ⟨p, hp, hmake⟩ := bind_eq_ok.1 h
  obtain rfl := Except.ok.inj (hproposed.symm.trans hp)
  obtain ⟨-, -, rfl⟩ := Column.compiled_make_eq_ok.1 hmake
  exact ⟨rfl, rfl, rfl⟩

/-- A relation of a valid component takes a column on its instances, as relations never move. -/
theorem Component.exists_column_of_manyToMany {e : Embedding} {ts : List Table}
    (hvalid : component.Valid) (hg : g ∈ component.storedFields) (hr : g.manyToMany? = some r)
    (h : component.tables e settings = .ok ts) :
    ∃ instances more, ts = instances :: more ∧ ∃ column ∈ instances.columns,
      column.name = g.key ∧ column.type = settings.targetName r.target ∧ column.isList = true := by
  have htype : g.type = .relation :=
    (hvalid.fields g (List.mem_filter.1 hg).1).type_eq_relation_iff.2
      ⟨r, (Field.manyToMany?_eq_some.1 hr).1⟩
  have hkept : g ∈ component.keptFields settings := by
    rw [keptFields_eq, List.mem_filter]
    simp [hg, Field.isTranslatable, htype]
  obtain ⟨-, columns, toOwner, hcolumns, -, hts⟩ := tables_eq_ok h
  obtain ⟨column, hmem, hcolumn⟩ := exists_of_mapM_of_mem hcolumns hkept
  have hlist := Field.column_of_manyToMany htype hr hcolumn
  have hinstances : column ∈ (component.instanceTable e settings columns toOwner).columns :=
    mem_instanceTable.2 (Or.inr (Or.inl hmem))
  rcases hts with ⟨-, rfl⟩ | ⟨-, t, -, rfl⟩
  · exact ⟨_, [], rfl, column, hinstances, hlist⟩
  · exact ⟨_, [t], rfl, column, hinstances, hlist⟩

/-- A relation from many to many of an embedded component is a list column on the compiled table of
its instances, and adds no junction: the instances and its target are joined exactly if a model asks
for a junction with their keys, and no other one of its name came first. -/
theorem Component.joins_iff_of_manyToMany
    (h : compileModels models components settings = .ok compilation) (hm : m ∈ models)
    (hf : f ∈ m.storedFields) (hc : f.component? = some c)
    (hfind : components.find? c.slug = some component) (hvalid : component.Valid)
    (hg : g ∈ component.storedFields) (hr : g.manyToMany? = some r) :
    ∃ instances ∈ compilation.tables,
      (∃ more, component.tables (m.embedding settings f c) (m.effectiveSettings settings) =
        .ok (instances :: more)) ∧
      (∃ column ∈ instances.columns, column.name = g.key ∧
        column.type = settings.targetName r.target ∧ column.isList = true) ∧
      ((∃ t ∈ compilation.tables, t.Joins instances.name (settings.targetName r.target)) ↔
        ∃ j, (models.flatMap (·.junctions settings)).find? (·.name settings == j.name settings) =
          some j ∧ j.IsBetween instances.name (settings.targetName r.target)) := by
  obtain ⟨ts, hts, hsub⟩ := (tables_subset_of_mem h hm).2 f hf c hc component hfind
  obtain ⟨instances, more, rfl, hcolumn⟩ := exists_column_of_manyToMany hvalid hg hr hts
  rw [ContentModel.targetName_effectiveSettings] at hcolumn
  exact ⟨instances, hsub List.mem_cons_self, ⟨more, hts⟩, hcolumn, exists_joins_iff h⟩

end Components

/-- Posts are joined to tags; their links are not, although they have a list of tags, too. -/
theorem not_joins_rawTaggedLinks : ∃ d compilation, rawTaggedLinks.validate = .ok d ∧
    compileModels d.models d.components .standard = .ok compilation ∧
    (∃ t ∈ compilation.tables, t.Joins "Post" "Tag") ∧
    ∃ links ∈ compilation.tables, links.name = "PostLink" ∧
      (∃ column ∈ links.columns, column.name = "tags" ∧ column.type = "Tag" ∧
        column.isList = true) ∧
      ¬ ∃ t ∈ compilation.tables, t.Joins "PostLink" "Tag" := by
  obtain ⟨d, compilation, hd, hcompilation, hposts, hlinks, m, hm, f, hf, c, hc, component, hfind,
      g, hg, r, hr, links, more, hts, hname, hkey, htarget⟩ :
      ∃ d compilation, rawTaggedLinks.validate = .ok d ∧
      compileModels d.models d.components .standard = .ok compilation ∧
      (∃ j, (d.models.flatMap (·.junctions .standard)).find?
        (·.name .standard == j.name .standard) = some j ∧ j.IsBetween "Post" "Tag") ∧
      (∀ j ∈ d.models.flatMap (·.junctions .standard), ¬ j.IsBetween "PostLink" "Tag") ∧
      ∃ m ∈ d.models, ∃ f ∈ m.storedFields, ∃ c, f.component? = some c ∧
        ∃ component, d.components.find? c.slug = some component ∧
        ∃ g ∈ component.storedFields, ∃ r, g.manyToMany? = some r ∧ ∃ links more,
          component.tables (m.embedding .standard f c) (m.effectiveSettings .standard) =
            .ok (links :: more) ∧
          links.name = "PostLink" ∧ g.key = "tags" ∧
          BuildSettings.standard.targetName r.target = "Tag" :=
    ⟨_, _, rfl, rfl, ⟨⟨"Post", "Tag", .restrict⟩, by decide +kernel, by decide +kernel⟩,
      by decide +kernel, _, List.mem_cons_of_mem _ List.mem_cons_self,
      _, List.mem_cons_of_mem _ (List.mem_cons_of_mem _ List.mem_cons_self), _, rfl, _, rfl,
      _, List.mem_cons_of_mem _ List.mem_cons_self, _, rfl, _, _, rfl, rfl, rfl, rfl⟩
  have hvalid : component.Valid :=
    ((Definitions.valid_of_validate hd).components _ (Components.mem_of_find?_eq_some hfind)).1
  obtain ⟨instances, hmem, ⟨more', hts'⟩, hcolumn, hiff⟩ :=
    Component.joins_iff_of_manyToMany hcompilation hm hf hc hfind hvalid hg hr
  obtain ⟨rfl, -⟩ := List.cons.inj (Except.ok.inj (hts.symm.trans hts'))
  rw [hkey, htarget] at hcolumn
  rw [hname, htarget] at hiff
  refine ⟨d, compilation, hd, hcompilation, (exists_joins_iff hcompilation).2 hposts, links, hmem,
    hname, hcolumn, fun hjoined => ?_⟩
  obtain ⟨j, hj, hbetween⟩ := hiff.1 hjoined
  exact hlinks j (List.mem_of_find?_eq_some hj) hbetween

end ContentSchema
