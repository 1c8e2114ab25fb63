import ContentSchema.Proofs.Compilation.Whole
import ContentSchema.Run.Definitions

/-!
# Wiring of attached tables

All tables but the base tables of models are attached to an owner (`Attached`).  Each holds the keys
that its constraints name, and leads back by them to the owner and, if it is a junction, to the
target (`Table.Wired`); the owner is compiled with it and its rows have identifiers
(`wired_of_compileModels`).
-/

namespace ContentSchema

/-! ### Keys and ways back -/

/-- The column is a string that each row has, and not the row's own identifier. -/
structure Column.IsKey (c : Column) : Prop where
  /-- It is not the identifier. -/
  name : c.name ≠ "id"
  /-- It is a string. -/
  type : c.type = ScalarType.string.name
  /-- Each row has one. -/
  nullable : c.nullable = false
  /-- Each row has only one. -/
  isList : c.isList = false

namespace Table

/-- The column under the name is a string that each row has. -/
def HoldsKey (t : Table) (name : String) : Prop :=
  ∃ c, t.column? name = some c ∧ c.type = ScalarType.string.name ∧ c.nullable = false ∧
    c.isList = false

/-- The rows have identifiers. -/
def HasIdentifier (t : Table) : Prop := ∃ c, t.column? "id" = some c ∧ "@id" ∈ c.attributes

/-- The table holds all keys that its constraints and relations name, and leads back by them to the
tables `ends` and to no others. -/
structure Wired (t : Table) (ends : List String) : Prop where
  /-- The keys that are unique together are held. -/
  unique : ∀ names ∈ t.unique, ∀ n ∈ names, t.HoldsKey n
  /-- The keys that have an index together are held. -/
  indexes : ∀ names ∈ t.indexes, ∀ n ∈ names, t.HoldsKey n
  /-- A relation leads to the identifier of one of the ends by the one key to it, which is held. -/
  relations : ∀ c ∈ t.columns, ∀ r ∈ c.relation, c.type ∈ ends ∧
    r.fields = [Naming.foreignKeyName c.type] ∧ r.references = ["id"] ∧
    t.HoldsKey (Naming.foreignKeyName c.type)
  /-- There is a relation to each of the ends. -/
  ends : ∀ table ∈ ends, ∃ c ∈ t.columns, c.type = table ∧ c.relation.isSome = true

variable {t : Table} {keys rest : List Column}

theorem hasIdentifier_of_columns (hcolumns : t.columns = Column.id :: rest) : t.HasIdentifier := by
  refine ⟨Column.id, ?_, List.mem_cons_self⟩
  rw [column?, hcolumns]
  rfl

/-- Keys that stand behind the identifier are held, even if several have one name. -/
theorem holdsKey_of_columns (hcolumns : t.columns = Column.id :: (keys ++ rest))
    (hkeys : ∀ c ∈ keys, c.IsKey) {name : String} (hname : name ∈ keys.map (·.name)) :
    t.HoldsKey name := by
  obtain ⟨c, hc, rfl⟩ := List.mem_map.1 hname
  have hid : (Column.id.name == c.name) = false := beq_false_of_ne (hkeys c hc).name.symm
  have hfound : (keys.find? (·.name == c.name)).isSome = true :=
    List.find?_isSome.2 ⟨c, hc, beq_self_eq_true _⟩
  obtain ⟨d, hd⟩ := Option.isSome_iff_exists.1 hfound
  have hkey := hkeys d (List.mem_of_find?_eq_some hd)
  refine ⟨d, ?_, hkey.type, hkey.nullable, hkey.isList⟩
  rw [column?, hcolumns, List.find?_cons, hid, List.find?_append, hd, Option.some_or]

/-- A table is wired if its constraints name keys behind the identifier, among them one for each of
the ends, and only the ways back to the ends are relations. -/
theorem wired_of_columns {ends : List String} (hcolumns : t.columns = Column.id :: (keys ++ rest))
    (hkeys : ∀ c ∈ keys, c.IsKey)
    (hunique : ∀ names ∈ t.unique, names ⊆ keys.map (·.name))
    (hindexes : ∀ names ∈ t.indexes, names ⊆ keys.map (·.name))
    (hends : ∀ table ∈ ends, Naming.foreignKeyName table ∈ keys.map (·.name) ∧
      ∃ action, Column.wayBack table action ∈ t.columns)
    (hrelations : ∀ c ∈ t.columns, c.relation = none ∨
      ∃ table ∈ ends, ∃ action, c = .wayBack table action) : t.Wired ends where
  unique := fun names hnames n hn => holdsKey_of_columns hcolumns hkeys (hunique names hnames hn)
  indexes := fun names hnames n hn => holdsKey_of_columns hcolumns hkeys (hindexes names hnames hn)
  relations := by
    intro c hc r hr
    rcases hrelations c hc with hnone | ⟨table, htable, action, rfl⟩
    · rw [hnone] at hr
      cases hr
    · cases hr
      exact ⟨htable, rfl, rfl, holdsKey_of_columns hcolumns hkeys (hends table htable).1⟩
  ends := fun table htable =>
    have ⟨action, hmem⟩ := (hends table htable).2
    ⟨_, hmem, rfl, rfl⟩

end Table

namespace Column

theorem isKey_foreignKeyName (table : String) (attributes : List String) :
    IsKey { string (Naming.foreignKeyName table) with attributes := attributes } :=
  ⟨Field.append_id_ne (by decide), rfl, rfl, rfl⟩

theorem isKey_lang : IsKey (string "lang") := ⟨by decide, rfl, rfl, rfl⟩

end Column

section Fields

variable {f : Field} {fields : List Field} {settings : BuildSettings} {c : Column}
  {columns : List Column}

/-- The column of a field is no relation column, even if it holds a relation. -/
theorem Field.relation_of_column (h : f.column settings = .ok c) : c.relation = none := by
  obtain ⟨p, hp, hmake⟩ := bind_eq_ok.1 h
  obtain ⟨-, -, rfl⟩ := Column.compiled_make_eq_ok.1 hmake
  change p.relation = none
  refine proposedColumn_cases (motive := fun d => d.relation = none) hp (fun _ _ _ => rfl)
    (fun _ => ?_) (fun _ r _ => ?_) fun _ _ _ => rfl
  · rw [mediaColumn]
    split <;> rfl
  · rw [relationColumn.eq_def]
    split <;> rfl

theorem relation_of_mem_columns (h : fields.mapM (·.column settings) = .ok columns)
    (hc : c ∈ columns) : c.relation = none := by
  obtain ⟨f, -, hf⟩ := exists_of_mem_mapM h hc
  exact Field.relation_of_column hf

end Fields

/-! ### Tables of each kind -/

section Tables

variable {settings : BuildSettings} {owner : String} {t : Table} {ts : List Table}

/-- Translations lead back to what is translated. -/
theorem wired_translationTable {fields : List Field} {mapName : Option String}
    (h : translationTable owner fields settings mapName = .ok t) : t.Wired [owner] := by
  obtain ⟨columns, toOwner, hcolumns, htoOwner, rfl⟩ := translationTable_eq_ok h
  obtain rfl := Column.backRelation_eq_ok htoOwner
  have hform : (translationTableOf owner columns (.wayBack owner .cascade) mapName).columns =
      Column.id :: ([Column.string (Naming.foreignKeyName owner), Column.string "lang"] ++
        (columns ++ [.wayBack owner .cascade])) := rfl
  refine Table.wired_of_columns hform ?_ ?_ ?_ ?_ ?_
  · rw [List.forall_mem_cons, List.forall_mem_singleton]
    exact ⟨Column.isKey_foreignKeyName owner [], Column.isKey_lang⟩
  · exact List.forall_mem_singleton.2 (List.Subset.refl _)
  · exact List.forall_mem_nil _
  · rw [List.forall_mem_singleton]
    exact ⟨List.mem_cons_self, .cascade, mem_translationTableOf.2 (Or.inr (Or.inr rfl))⟩
  · intro c hc
    rcases mem_translationTableOf.1 hc with hc | hc | rfl
    · simp only [List.mem_cons, List.not_mem_nil, or_false] at hc
      rcases hc with rfl | rfl | rfl <;> exact Or.inl rfl
    · exact Or.inl (relation_of_mem_columns hcolumns hc)
    · exact Or.inr ⟨owner, List.mem_cons_self, .cascade, rfl⟩

theorem Embedding.relation_of_mem_fixedColumns {e : Embedding} {c : Column}
    (hc : c ∈ e.fixedColumns) : c.relation = none := by
  simp only [fixedColumns, List.mem_append, List.mem_cons, List.not_mem_nil, or_false] at hc
  rcases hc with (((rfl | rfl) | hc) | hc) | rfl | rfl
  · rfl
  · rfl
  · split at hc
    · rw [List.mem_singleton.1 hc]
      rfl
    · cases hc
  · split at hc
    · simp only [variantColumns, List.mem_cons, List.not_mem_nil, or_false] at hc
      rcases hc with rfl | rfl <;> rfl
    · cases hc
  · rfl
  · rfl

theorem relation_of_mem_translations {moved : List Field} {c : Column}
    (hc : c ∈ if moved.isEmpty then [] else [Column.translations owner]) : c.relation = none := by
  split at hc
  · cases hc
  · rw [List.mem_singleton.1 hc]
    rfl

/-- Instances of a component lead back to the row that embeds them. -/
theorem Component.wired_instanceTable {c : Component} {e : Embedding} {columns : List Column}
    (hcolumns : (c.keptFields settings).mapM (·.column settings) = .ok columns) :
    (c.instanceTable e settings columns (.wayBack e.owner .cascade)).Wired [e.owner] := by
  have hform : ∃ rest,
      (c.instanceTable e settings columns (.wayBack e.owner .cascade)).columns =
        Column.id :: ([{ Column.string (Naming.foreignKeyName e.owner) with
          attributes := if e.repeatable then [] else ["@unique"] }] ++ rest) := by
    simp [instanceTable]
  obtain ⟨rest, hform⟩ := hform
  refine Table.wired_of_columns hform ?_ ?_ ?_ ?_ ?_
  · exact List.forall_mem_singleton.2 (Column.isKey_foreignKeyName e.owner _)
  · exact List.forall_mem_nil _
  · intro names hnames
    rw [instanceTable] at hnames
    split at hnames
    · rw [List.mem_singleton.1 hnames]
      exact List.Subset.refl _
    · cases hnames
  · rw [List.forall_mem_singleton]
    exact ⟨List.mem_cons_self, .cascade, mem_instanceTable.2 (Or.inr (Or.inr (Or.inl rfl)))⟩
  · intro d hd
    rcases mem_instanceTable.1 hd with hd | hd | rfl | hd
    · exact Or.inl (Embedding.relation_of_mem_fixedColumns hd)
    · exact Or.inl (relation_of_mem_columns hcolumns hd)
    · exact Or.inr ⟨e.owner, List.mem_cons_self, .cascade, rfl⟩
    · exact Or.inl (relation_of_mem_translations hd)

/-- Junctions lead back to the owner of the relation and to its target, which may be the same
table. -/
theorem Field.wired_junctionTable {f : Field} {r : RelationConfig} (hr : f.manyToMany? = some r)
    (h : f.junctionTable owner settings = .ok t) :
    t.Wired [owner, settings.targetName r.target] := by
  obtain ⟨r', toOwner, toTarget, hr', htoOwner, htoTarget, rfl, -⟩ := junctionTable_eq_ok h
  obtain rfl := Option.some.inj (hr.symm.trans hr')
  obtain rfl := Column.backRelation_eq_ok htoOwner
  obtain rfl := Column.backRelation_eq_ok htoTarget
  generalize settings.targetName r.target = target
  have hform : (junctionTableOf owner target settings (.wayBack owner r.cascade.ownerAction)
      (.wayBack target .cascade)).columns = Column.id ::
        ([Column.string (Naming.foreignKeyName owner), Column.string (Naming.foreignKeyName target)]
          ++ [Column.order, Column.createdAt, .wayBack owner r.cascade.ownerAction,
            .wayBack target .cascade]) := rfl
  refine Table.wired_of_columns hform ?_ ?_ ?_ ?_ ?_
  · rw [List.forall_mem_cons, List.forall_mem_singleton]
    exact ⟨Column.isKey_foreignKeyName owner [], Column.isKey_foreignKeyName target []⟩
  · exact List.forall_mem_singleton.2 (List.Subset.refl _)
  · refine List.forall_mem_cons.2 ⟨?_, List.forall_mem_singleton.2 ?_⟩
    · exact List.cons_subset.2 ⟨List.mem_cons_self, List.nil_subset _⟩
    · exact List.subset_cons_self _ _
  · rw [List.forall_mem_cons, List.forall_mem_singleton]
    refine ⟨⟨List.mem_cons_self, r.cascade.ownerAction, ?_⟩,
      ⟨List.mem_cons_of_mem _ List.mem_cons_self, .cascade, ?_⟩⟩
    · simp [junctionTableOf]
    · simp [junctionTableOf]
  · simp only [junctionTableOf, List.forall_mem_cons]
    exact ⟨Or.inl rfl, Or.inl rfl, Or.inl rfl, Or.inl rfl, Or.inl rfl,
      Or.inr ⟨owner, List.mem_cons_self, _, rfl⟩,
      Or.inr ⟨target, List.mem_cons_of_mem _ List.mem_cons_self, _, rfl⟩, List.forall_mem_nil _⟩

/-- The base table of a model is the first one; the rows have identifiers, and the second table
leads back to them. -/
theorem ContentModel.exists_base_of_tables {m : ContentModel} {available : Option (List String)}
    (h : m.tables settings available = .ok ts) : ∃ base more, ts = base :: more ∧
      base.name = m.tableName settings ∧ base.HasIdentifier ∧
      ∀ t ∈ more, t.Wired [base.name] := by
  obtain ⟨-, columns, -, ⟨-, rfl⟩ | ⟨-, t, ht, rfl⟩⟩ := tables_eq_ok h
  · exact ⟨_, [], rfl, rfl, Table.hasIdentifier_of_columns rfl, List.forall_mem_nil _⟩
  · exact ⟨_, [t], rfl, rfl, Table.hasIdentifier_of_columns rfl,
      List.forall_mem_singleton.2 (wired_translationTable ht)⟩

/-- The instances of a component are the first table, which leads back to the owner; they have
identifiers, and the second table leads back to them. -/
theorem Component.exists_instances_of_tables {c : Component} {e : Embedding}
    (h : c.tables e settings = .ok ts) : ∃ instances more, ts = instances :: more ∧
      instances.name = e.tableName settings ∧ instances.HasIdentifier ∧
      instances.Wired [e.owner] ∧ ∀ t ∈ more, t.Wired [instances.name] := by
  obtain ⟨-, columns, toOwner, hcolumns, htoOwner, hts⟩ := tables_eq_ok h
  obtain rfl := Column.backRelation_eq_ok htoOwner
  have hwired := @wired_instanceTable settings c e columns hcolumns
  rcases hts with ⟨-, rfl⟩ | ⟨-, t, ht, rfl⟩
  · exact ⟨_, [], rfl, rfl, Table.hasIdentifier_of_columns rfl, hwired, List.forall_mem_nil _⟩
  · exact ⟨_, [t], rfl, rfl, Table.hasIdentifier_of_columns rfl, hwired,
      List.forall_mem_singleton.2 (wired_translationTable ht)⟩

end Tables

/-! ### Owners -/

/-- A table is attached to its owner, and leads to the owner and to the tables `others`: the
translations of a model, the instances of a component on the model that embeds it, their
translations, or the junction of a relation of a model, which leads to the target as well. -/
inductive Attached (models : List ContentModel) (components : Components)
    (settings : BuildSettings) : Table → (owner : String) → (others : List String) → Prop where
  /-- Translations of a model's rows. -/
  | translations {m : ContentModel} {base t : Table} {more : List Table} (hm : m ∈ models)
    (hts : m.tables settings (some components.slugs) = .ok (base :: more)) (ht : t ∈ more) :
    Attached models components settings t base.name []
  /-- Instances of a component that a field of a model embeds. -/
  | instances {m : ContentModel} {f : Field} {c : ComponentConfig} {component : Component}
    {t : Table} {more : List Table} (hm : m ∈ models) (hf : f ∈ m.storedFields)
    (hc : f.component? = some c) (hfind : components.find? c.slug = some component)
    (hts : component.tables (m.embedding settings f c) (m.effectiveSettings settings) =
      .ok (t :: more)) : Attached models components settings t (m.tableName settings) []
  /-- Translations of the instances. -/
  | instanceTranslations {m : ContentModel} {f : Field} {c : ComponentConfig}
    {component : Component} {instances t : Table} {more : List Table} (hm : m ∈ models)
    (hf : f ∈ m.storedFields) (hc : f.component? = some c)
    (hfind : components.find? c.slug = some component)
    (hts : component.tables (m.embedding settings f c) (m.effectiveSettings settings) =
      .ok (instances :: more)) (ht : t ∈ more) :
    Attached models components settings t instances.name []
  /-- A junction between the rows of a model and those of a target. -/
  | junction {m : ContentModel} {f : Field} {r : RelationConfig} {t : Table} (hm : m ∈ models)
    (hf : f ∈ m.storedFields) (hr : f.manyToMany? = some r)
    (ht : f.junctionTable (m.tableName settings) (m.effectiveSettings settings) = .ok t) :
    Attached models components settings t (m.tableName settings) [settings.targetName r.target]

section Attached

variable {models : List ContentModel} {components : Components} {settings : BuildSettings}
  {compilation : Compilation} {m : ContentModel} {t : Table} {owner : String}
  {others : List String}

theorem ContentModel.targetName_effectiveSettings (m : ContentModel) (settings : BuildSettings)
    (target : String) :
    (m.effectiveSettings settings).targetName target = settings.targetName target := by
  obtain ⟨translated, heq⟩ := m.effectiveSettings_eq settings
  rw [heq]
  rfl

theorem Attached.wired (h : Attached models components settings t owner others) :
    t.Wired (owner :: others) := by
  cases h with
  | translations _ hts ht =>
    obtain ⟨base, more, heq, -, -, hmore⟩ := ContentModel.exists_base_of_tables hts
    cases heq
    exact hmore t ht
  | instances _ _ _ _ hts =>
    obtain ⟨instances, more, heq, -, -, hwired, -⟩ := Component.exists_instances_of_tables hts
    cases heq
    exact hwired
  | instanceTranslations _ _ _ _ hts ht =>
    obtain ⟨instances, more, heq, -, -, -, hmore⟩ := Component.exists_instances_of_tables hts
    cases heq
    exact hmore t ht
  | junction _ _ hr ht =>
    rw [← ContentModel.targetName_effectiveSettings]
    exact Field.wired_junctionTable hr ht

/-- The base table of each model is compiled. -/
theorem exists_base_mem_tables (h : compileModels models components settings = .ok compilation)
    (hm : m ∈ models) :
    ∃ base ∈ compilation.tables, base.name = m.tableName settings ∧ base.HasIdentifier := by
  obtain ⟨⟨ts, hts, hsub⟩, -⟩ := tables_subset_of_mem h hm
  obtain ⟨base, more, rfl, hname, hid, -⟩ := ContentModel.exists_base_of_tables hts
  exact ⟨base, hsub List.mem_cons_self, hname, hid⟩

/-- The owner of a table is compiled, too. -/
theorem Attached.exists_owner (h : compileModels models components settings = .ok compilation)
    (ht : Attached models components settings t owner others) :
    ∃ table ∈ compilation.tables, table.name = owner ∧ table.HasIdentifier := by
  cases ht with
  | translations hm hts =>
    obtain ⟨base, more, heq, hname, -⟩ := ContentModel.exists_base_of_tables hts
    cases heq
    rw [hname]
    exact exists_base_mem_tables h hm
  | instances hm => exact exists_base_mem_tables h hm
  | instanceTranslations hm hf hc hfind hts =>
    obtain ⟨ts, hts', hsub⟩ := (tables_subset_of_mem h hm).2 _ hf _ hc _ hfind
    obtain rfl := Except.ok.inj (hts.symm.trans hts')
    obtain ⟨instances, more, heq, -, hid, -⟩ := Component.exists_instances_of_tables hts
    cases heq
    exact ⟨_, hsub List.mem_cons_self, rfl, hid⟩
  | junction hm => exact exists_base_mem_tables h hm

/-- A table that is made is the base table of a model or attached to an owner. -/
theorem Made.base_or_attached (h : Made models components settings t) :
    (∃ m ∈ models, ∃ more, m.tables settings (some components.slugs) = .ok (t :: more)) ∨
      ∃ owner others, Attached models components settings t owner others := by
  cases h with
  | model hm hts ht =>
    obtain ⟨base, more, rfl, -⟩ := ContentModel.exists_base_of_tables hts
    rcases List.mem_cons.1 ht with rfl | ht
    · exact Or.inl ⟨_, hm, more, hts⟩
    · exact Or.inr ⟨_, _, .translations hm hts ht⟩
  | component hm hf hc hfind hts ht =>
    obtain ⟨instances, more, rfl, -⟩ := Component.exists_instances_of_tables hts
    rcases List.mem_cons.1 ht with rfl | ht
    · exact Or.inr ⟨_, _, .instances hm hf hc hfind hts⟩
    · exact Or.inr ⟨_, _, .instanceTranslations hm hf hc hfind hts ht⟩
  | junction hm hf ht =>
    obtain ⟨r, _, _, hr, -⟩ := Field.junctionTable_eq_ok ht
    exact Or.inr ⟨_, _, .junction hm hf hr ht⟩

/-- The tables of a compilation are the base tables of models and those that are attached to an
owner.  An attached table holds the keys that its constraints name and leads back by them to the
owner and, if it is a junction, to the target; and the owner is compiled and its rows have
identifiers. -/
theorem wired_of_compileModels
    (h : compileModels models components settings = .ok compilation) :
    (∀ t ∈ compilation.tables,
      (∃ m ∈ models, ∃ more, m.tables settings (some components.slugs) = .ok (t :: more)) ∨
        ∃ owner others, Attached models components settings t owner others) ∧
    ∀ t owner others, Attached models components settings t owner others →
      t.Wired (owner :: others) ∧
        ∃ table ∈ compilation.tables, table.name = owner ∧ table.HasIdentifier :=
  ⟨fun _ ht => (made_of_mem_tables h ht).base_or_attached,
    fun _ _ _ ht => ⟨ht.wired, ht.exists_owner h⟩⟩

end Attached

/-- Posts with tags and with links, which have tags as well. -/
def rawTaggedLinks : RawDefinitions where
  models := [
    .object [
      ("slug", .text "tag"), ("name", .text "Tag"),
      ("fields", .list [
        .object [("key", .text "uses"), ("label", .text "Uses"), ("type", .text "number"),
          ("translatable", .bool false)]])],
    .object [
      ("slug", .text "post"), ("name", .text "Post"),
      ("fields", .list [
        .object [("key", .text "title"), ("label", .text "Title"), ("type", .text "text")],
        .object [("key", .text "tags"), ("label", .text "Tags"), ("type", .text "relation"),
          ("config", .object [
            ("relationType", .text "manyToMany"), ("targetModel", .text "tag")])],
        .object [("key", .text "links"), ("label", .text "Links"), ("type", .text "component"),
          ("config", .object [("slug", .text "link"), ("repeatable", .bool true)])]])]]
  components := [
    .object [
      ("slug", .text "link"), ("name", .text "Link"),
      ("fields", .list [
        .object [("key", .text "text"), ("label", .text "Text"), ("type", .text "text")],
        .object [("key", .text "tags"), ("label", .text "Tags"), ("type", .text "relation"),
          ("config", .object [
            ("relationType", .text "manyToMany"), ("targetModel", .text "tag")])]])]]
  warnings := []

/-- The translations of a post's links lead back to the links and not to the post, and its tags join
it to tags. -/
theorem wired_rawTaggedLinks : ∃ d compilation, rawTaggedLinks.validate = .ok d ∧
    compileModels d.models d.components .standard = .ok compilation ∧
    compilation.tables.map (·.name) =
      ["Tag", "Post", "PostTranslation", "PostTag", "PostLink", "PostLinkTranslation"] ∧
    (∃ t ∈ compilation.tables, t.name = "PostLinkTranslation" ∧ t.Wired ["PostLink"]) ∧
    ∃ t ∈ compilation.tables, t.name = "PostTag" ∧ t.Wired ["Post", "Tag"] := by
  obtain ⟨d, compilation, hd, hcompilation, hnames, m, hm,
      ⟨f, hf, c, hc, component, hfind, instances, t, hts, htmem, htname, htends⟩,
      g, hg, r, hr, u, hu, humem, huname, huends⟩ :
      ∃ d compilation, rawTaggedLinks.validate = .ok d ∧
      compileModels d.models d.components .standard = .ok compilation ∧
      compilation.tables.map (·.name) =
        ["Tag", "Post", "PostTranslation", "PostTag", "PostLink", "PostLinkTranslation"] ∧
      ∃ m ∈ d.models,
        (∃ f ∈ m.storedFields, ∃ c, f.component? = some c ∧
          ∃ component, d.components.find? c.slug = some component ∧ ∃ instances t,
            component.tables (m.embedding .standard f c) (m.effectiveSettings .standard) =
              .ok [instances, t] ∧
            compilation.tables[5]? = some t ∧ t.name = "PostLinkTranslation" ∧
            [instances.name] = ["PostLink"]) ∧
        ∃ f ∈ m.storedFields, ∃ r, f.manyToMany? = some r ∧ ∃ t,
          f.junctionTable (m.tableName .standard) (m.effectiveSettings .standard) = .ok t ∧
          compilation.tables[3]? = some t ∧ t.name = "PostTag" ∧
          [m.tableName .standard, BuildSettings.standard.targetName r.target] = ["Post", "Tag"] :=
    ⟨_, _, rfl, rfl, by decide +kernel, _, List.mem_cons_of_mem _ List.mem_cons_self,
      ⟨_, List.mem_cons_of_mem _ (List.mem_cons_of_mem _ List.mem_cons_self), _, rfl, _, rfl, _, _,
        rfl, rfl, rfl, rfl⟩,
      _, List.mem_cons_of_mem _ List.mem_cons_self, _, rfl, _, rfl, rfl, rfl, rfl⟩
  have hwired := (wired_of_compileModels hcompilation).2
  have ht := (hwired t _ _ (.instanceTranslations hm hf hc hfind hts List.mem_cons_self)).1
  have hu := (hwired u _ _ (.junction hm hg hr hu)).1
  rw [htends] at ht
  rw [huends] at hu
  exact ⟨d, compilation, hd, hcompilation, hnames, ⟨t, List.mem_of_getElem? htmem, htname, ht⟩,
    u, List.mem_of_getElem? humem, huname, hu⟩

end ContentSchema
