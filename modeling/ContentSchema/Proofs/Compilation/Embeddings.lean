import ContentSchema.Proofs.Compilation.Indexes
import ContentSchema.Proofs.Compilation.Locality
import ContentSchema.Proofs.Run.Definitions

/-!
# Embedded components

The fields of a model are gone through twice: for the columns of its base table, and for the tables
that they add.  Both times a field yields a part of the whole, in the order of the fields
(`ContentModel.Emits`).  Where a field embeds a component, the two parts agree: the column refers to
the table of the instances, which leads back to the base table, and both are missing together
(`exists_emits_of_compileModels`).
-/

namespace ContentSchema

/-! ### What a field yields -/

/-- What a stored field yields: a column on the base table of its model, and tables. -/
structure Yield where
  /-- The field. -/
  field : Field
  /-- The column; none if the field has moved or its component is missing. -/
  column : Option Column
  /-- The tables of an embedded component, or a junction unless it is left out. -/
  tables : List Table

namespace Yield

/-- Whether the field embeds a component. -/
def embeds (y : Yield) : Bool := y.field.component?.isSome

variable {R : Field → Option Column → Prop} {S : Field → List Table → Prop} {fields : List Field}
  {columns : List (Option Column)} {kept : List (List Table)}

/-- Columns and tables that go with the same fields are yielded together. -/
theorem exists_of_forall₂ (hcolumns : List.Forall₂ R fields columns)
    (hkept : List.Forall₂ S fields kept) :
    ∃ yields : List Yield, yields.map (·.field) = fields ∧ yields.map (·.column) = columns ∧
      yields.map (·.tables) = kept ∧ ∀ y ∈ yields, R y.field y.column ∧ S y.field y.tables := by
  induction hcolumns generalizing kept with
  | nil =>
    obtain rfl := List.forall₂_nil_left_iff.1 hkept
    exact ⟨[], rfl, rfl, rfl, by simp⟩
  | @cons f column fields columns hcolumn _ ih =>
    obtain ⟨tables, kept, htables, hrest, rfl⟩ := List.forall₂_cons_left_iff.1 hkept
    obtain ⟨yields, hfields, hcolumns, hkept, hall⟩ := ih hrest
    exact ⟨⟨f, column, tables⟩ :: yields, by rw [List.map_cons, hfields],
      by rw [List.map_cons, hcolumns], by rw [List.map_cons, hkept],
      List.forall_mem_cons.2 ⟨⟨hcolumn, htables⟩, hall⟩⟩

end Yield

/-! ### What is kept of what a field adds -/

/-- The tables that are kept of what a field adds: all that there are, unless a junction of the same
name was seen. -/
inductive Keeps : Option Addition → List Table → Prop where
  /-- The field adds nothing. -/
  | nothing : Keeps none []
  /-- All tables are kept. -/
  | all (a : Addition) : Keeps (some a) a.tables
  /-- A junction is left out. -/
  | seen (table : Table) : Keeps (some (.junction table)) []

/-- The tables that are kept are told apart by the fields that add them. -/
theorem exists_keeps (all : List (Option Addition)) (seen : List String) :
    ∃ kept, List.Forall₂ Keeps all kept ∧
      (keepAdditions seen (all.filterMap id)).1 = kept.flatten := by
  induction all generalizing seen with
  | nil => exact ⟨[], .nil, rfl⟩
  | cons addition all ih =>
    cases addition with
    | none =>
      obtain ⟨kept, hkept, heq⟩ := ih seen
      exact ⟨[] :: kept, .cons .nothing hkept, heq⟩
    | some a =>
      rw [List.filterMap_cons_some (f := id) rfl]
      cases a with
      | component tables =>
        obtain ⟨kept, hkept, heq⟩ := ih seen
        exact ⟨tables :: kept, .cons (.all (.component tables)) hkept, congrArg (tables ++ ·) heq⟩
      | missing warning =>
        obtain ⟨kept, hkept, heq⟩ := ih seen
        exact ⟨[] :: kept, .cons (.all (.missing warning)) hkept, heq⟩
      | junction table =>
        rw [keepAdditions]
        split
        · obtain ⟨kept, hkept, heq⟩ := ih seen
          exact ⟨[] :: kept, .cons (.seen table) hkept, heq⟩
        · obtain ⟨kept, hkept, heq⟩ := ih (table.name :: seen)
          exact ⟨[table] :: kept, .cons (.all (.junction table)) hkept, congrArg (table :: ·) heq⟩

section Component

variable {m : ContentModel} {settings : BuildSettings} {components : Components} {owner : String}
  {f : Field} {c : ComponentConfig}

/-- The tables of an embedded component are always kept. -/
theorem Keeps.of_component {addition : Option Addition} {kept : List Table}
    (hkeeps : Keeps addition kept) (hc : f.component? = some c)
    (h : m.additionOf settings components owner f = .ok addition) :
    (components.find? c.slug = none ∧ kept = []) ∨
      ∃ component, components.find? c.slug = some component ∧
        component.tables ⟨owner, f.key, c.repeatable, c.context⟩ settings = .ok kept := by
  rcases additionOf_eq_ok h with
    ⟨hnone, -⟩ | ⟨c', hc', hfind, rfl⟩ | ⟨c', component, ts, hc', hfind, htables, rfl⟩ | ⟨hnone, -⟩
  · rw [hc] at hnone
    cases hnone
  · rw [hc] at hc'
    cases hc'
    cases hkeeps
    exact Or.inl ⟨hfind, rfl⟩
  · rw [hc] at hc'
    cases hc'
    cases hkeeps
    exact Or.inr ⟨component, hfind, htables⟩
  · rw [hc] at hnone
    cases hnone

/-- A field that embeds a component has its reference as column if the component is there. -/
theorem Field.Valid.baseColumn?_of_component (hf : f.Valid) (hc : f.component? = some c)
    (slugs moved : List String) :
    ContentModel.baseColumn? owner settings (some slugs) moved f =
      if c.slug ∈ slugs then some <$> f.componentReference owner settings else pure none := by
  have hlacks : ContentModel.lacksComponent (some slugs) f = !slugs.contains c.slug := by
    unfold ContentModel.lacksComponent
    rw [hc]
  rw [ContentModel.baseColumn?, if_pos (hf.type_eq_component_iff.2 ⟨c, hc⟩), hlacks]
  by_cases hmem : c.slug ∈ slugs <;> simp [hmem]

theorem Field.componentReference_eq (hc : f.component? = some c) {reference : Column}
    (h : f.componentReference owner settings = .ok reference) :
    reference.type = Naming.componentTableName owner f.key settings.convention ∧
      reference.isList = c.repeatable := by
  rw [componentReference, hc] at h
  obtain ⟨-, -, rfl⟩ := Column.compiled_make_eq_ok.1 h
  exact ⟨rfl, rfl⟩

end Component

/-! ### Instances and references -/

/-- A table of instances and a reference to it from a row of `owner` agree. -/
structure Table.BelongsTo (instances : Table) (owner : String) (reference : Column) : Prop where
  /-- The reference is to the instances. -/
  type : reference.type = instances.name
  /-- The instances have the key of the row; the reference is to one of them if the key is unique,
  and to many if it is only indexed. -/
  key : ∃ key, instances.columns.find? (·.name == Naming.foreignKeyName owner) = some key ∧
    key.type = ScalarType.string.name ∧
    (reference.isList = true ↔
      "@unique" ∉ key.attributes ∧ [Naming.foreignKeyName owner] ∈ instances.indexes)
  /-- The instances lead back to the row through this key, and are deleted with it. -/
  back : ∃ back ∈ instances.columns, back.type = owner ∧
    back.relation = some ⟨none, [Naming.foreignKeyName owner], ["id"], some .cascade, none⟩

namespace Component

variable {component : Component} {settings : BuildSettings} {reference : Column}

/-- The table of instances agrees with a reference to it that is a list if there may be several. -/
theorem belongsTo_instanceTable {e : Embedding} (htype : reference.type = e.tableName settings)
    (hlist : reference.isList = e.repeatable) (columns : List Column) :
    (component.instanceTable e settings columns (.wayBack e.owner .cascade)).BelongsTo e.owner
      reference where
  type := htype
  key := by
    refine ⟨{ Column.string (Naming.foreignKeyName e.owner) with
      attributes := if e.repeatable then [] else ["@unique"] }, ?_, rfl, ?_⟩
    · have hid : ("id" == Naming.foreignKeyName e.owner) = false :=
        beq_false_of_ne (Field.append_id_ne (by decide)).symm
      simp [instanceTable, Column.id, Column.string, Column.bare, hid]
    · rw [hlist, instanceTable]
      cases e.repeatable <;> simp
  back :=
    ⟨.wayBack e.owner .cascade, mem_instanceTable.2 (Or.inr (Or.inr (Or.inl rfl))), rfl, rfl⟩

/-- The first table of an embedded component is that of its instances, and it agrees with the
reference of the field. -/
theorem exists_belongsTo_of_tables {owner : String} {f : Field} {c : ComponentConfig}
    {ts : List Table} (hc : f.component? = some c)
    (href : f.componentReference owner settings = .ok reference)
    (hts : component.tables ⟨owner, f.key, c.repeatable, c.context⟩ settings = .ok ts) :
    ∃ instances more, ts = instances :: more ∧ instances.BelongsTo owner reference := by
  obtain ⟨htype, hlist⟩ := Field.componentReference_eq hc href
  obtain ⟨-, columns, toOwner, -, htoOwner, hts⟩ := tables_eq_ok hts
  obtain rfl := Column.backRelation_eq_ok htoOwner
  have hbelongs := @belongsTo_instanceTable component settings reference
    ⟨owner, f.key, c.repeatable, c.context⟩ htype hlist columns
  rcases hts with ⟨-, rfl⟩ | ⟨-, t, -, rfl⟩
  · exact ⟨_, [], rfl, hbelongs⟩
  · exact ⟨_, [t], rfl, hbelongs⟩

end Component

/-! ### What a model emits -/

/-- What a field yields that embeds a component. -/
inductive Yield.OfComponent (components : Components) (settings : BuildSettings) (owner : String)
    (y : Yield) (c : ComponentConfig) : Prop where
  /-- If there is no component under the slug, neither a column nor tables. -/
  | missing (hslug : c.slug ∉ components.slugs) (hcolumn : y.column = none)
    (htables : y.tables = [])
  /-- Otherwise a reference, and the tables of the component, of which the first one agrees with the
  reference. -/
  | embedded {component : Component} {reference : Column} {instances : Table} {more : List Table}
    (hfind : components.find? c.slug = some component)
    (hcolumn : y.column = some reference)
    (htables : y.tables = instances :: more)
    (hcompiled : component.tables ⟨owner, y.field.key, c.repeatable, c.context⟩ settings =
      .ok y.tables)
    (hbelongs : instances.BelongsTo owner reference)

/-- What a compilation emits for a model, told apart by the fields that yield it. -/
structure ContentModel.Emits (m : ContentModel) (components : Components) (settings : BuildSettings)
    (group : Group) (base : Table) (yields : List Yield) : Prop where
  /-- Each stored field yields something, in order. -/
  fields : yields.map (·.field) = m.storedFields
  /-- The base table is the first of the model. -/
  own : group.own.head? = some base
  /-- Its columns are those that are yielded, next to those that every such table has. -/
  columns : base = m.baseTable (m.effectiveSettings settings) (yields.map (·.column))
  /-- The tables that are added are those that are yielded. -/
  derived : group.derived = yields.flatMap (·.tables)
  /-- The references to components have the tables of their instances as types, in order. -/
  references : ((yields.filter (·.embeds)).filterMap (·.column)).map (·.type) =
    ((yields.filter (·.embeds)).filterMap (·.tables.head?)).map (·.name)
  /-- A reference and the tables that it leads to agree, or there are none. -/
  components : ∀ y ∈ yields, ∀ c ∈ y.field.component?,
    y.OfComponent components (m.effectiveSettings settings) base.name c

section Emits

variable {before after : List ContentModel} {m : ContentModel} {components : Components}
  {settings : BuildSettings} {compilation : Compilation} {owner : String} {c : ComponentConfig}
  {y : Yield} {yields : List Yield}

/-- The column of a field and the tables that are kept of what it adds agree. -/
theorem Yield.ofComponent_of_keeps {moved : List String} {addition : Option Addition}
    (hf : y.field.Valid) (hc : y.field.component? = some c)
    (hcolumn : ContentModel.baseColumn? owner settings (some components.slugs) moved y.field =
      .ok y.column)
    (haddition : m.additionOf settings components owner y.field = .ok addition)
    (hkeeps : Keeps addition y.tables) : y.OfComponent components settings owner c := by
  rw [hf.baseColumn?_of_component hc] at hcolumn
  rcases hkeeps.of_component hc haddition with ⟨hfind, hnone⟩ | ⟨component, hfind, htables⟩
  · have hslug : c.slug ∉ components.slugs := Components.not_mem_slugs_iff.2 hfind
    rw [if_neg hslug] at hcolumn
    exact .missing hslug (pure_eq_ok.1 hcolumn).symm hnone
  · rw [if_pos (Components.mem_slugs_iff.2 ⟨component, hfind⟩)] at hcolumn
    obtain ⟨reference, href, hcolumn⟩ := map_eq_ok.1 hcolumn
    obtain ⟨instances, more, hmore, hbelongs⟩ :=
      Component.exists_belongsTo_of_tables hc href htables
    exact .embedded hfind hcolumn.symm hmore htables hbelongs

theorem Yield.OfComponent.type_eq (h : y.OfComponent components settings owner c) :
    y.column.map (·.type) = y.tables.head?.map (·.name) := by
  cases h with
  | missing _ hcolumn htables => rw [hcolumn, htables]; rfl
  | embedded _ hcolumn htables _ hbelongs =>
    rw [hcolumn, htables]
    exact congrArg some hbelongs.type

/-- Agreement field by field makes the lists of references and of tables agree. -/
theorem Yield.references_eq (h : ∀ y ∈ yields, ∀ c ∈ y.field.component?,
      y.OfComponent components settings owner c) :
    ((yields.filter (·.embeds)).filterMap (·.column)).map (·.type) =
      ((yields.filter (·.embeds)).filterMap (·.tables.head?)).map (·.name) := by
  rw [List.map_filterMap, List.map_filterMap]
  refine List.filterMap_congr fun y hy => ?_
  obtain ⟨hmem, hembeds⟩ := List.mem_filter.1 hy
  obtain ⟨c, hc⟩ := Option.isSome_iff_exists.1 hembeds
  exact (h y hmem c hc).type_eq

/-- References to components and tables of components agree: the fields of a valid model yield the
columns of its base table and the tables behind it, and those that embed a component yield both a
reference and the table of the instances, which lead to each other, or neither. -/
theorem exists_emits_of_compileModels {v : Value} (hm : ContentModel.check v = .accepted m)
    (h : compileModels (before ++ m :: after) components settings = .ok compilation) :
    ∃ group base yields, compilation.groups[before.length]? = some group ∧
      m.Emits components settings group base yields := by
  have hvalid := ContentModel.valid_of_check hm
  obtain ⟨⟨own, found⟩, seen, ⟨hown, hfound⟩, hgroup⟩ := exists_group_of_compileModels h
  obtain ⟨-, columns, hcolumns, hown⟩ := ContentModel.tables_eq_ok hown
  obtain ⟨all, hall, hfound⟩ := bind_eq_ok.1 hfound
  obtain rfl := pure_eq_ok.1 hfound
  obtain ⟨kept, hkept, hderived⟩ := exists_keeps all seen
  -- columns and kept tables go with the same fields
  obtain ⟨yields, hfields, rfl, rfl, hyields⟩ :=
    Yield.exists_of_forall₂ (mapM_eq_ok.1 hcolumns) (forall₂_comp (mapM_eq_ok.1 hall) hkept)
  have hcomponents : ∀ y ∈ yields, ∀ c ∈ y.field.component?, y.OfComponent components
      (m.effectiveSettings settings) ((m.effectiveSettings settings).tableName m.slug) c := by
    intro y hy c hc
    obtain ⟨hcolumn, addition, haddition, hkeeps⟩ := hyields y hy
    have hf : y.field ∈ m.storedFields := hfields ▸ List.mem_map_of_mem hy
    exact Yield.ofComponent_of_keeps (hvalid.fields _ (List.mem_filter.1 hf).1) hc hcolumn
      haddition hkeeps
  refine ⟨_, _, yields, hgroup, {
    fields := hfields
    own := ?_
    columns := rfl
    derived := by rw [List.flatMap_def, ← hderived]
    references := Yield.references_eq hcomponents
    components := hcomponents }⟩
  rcases hown with ⟨-, rfl⟩ | ⟨-, t, -, rfl⟩ <;> rfl

end Emits

/-- Pages with a header, links and something that nothing tells about. -/
def rawPages : RawDefinitions where
  models := [.object [
    ("slug", .text "page"), ("name", .text "Page"),
    ("fields", .list [
      .object [("key", .text "header"), ("label", .text "Header"), ("type", .text "component"),
        ("config", .object [("slug", .text "hero")])],
      .object [("key", .text "gone"), ("label", .text "Gone"), ("type", .text "component"),
        ("config", .object [("slug", .text "gone")])],
      .object [("key", .text "links"), ("label", .text "Links"), ("type", .text "component"),
        ("config", .object [("slug", .text "link"), ("repeatable", .bool true)])]])]]
  components := [
    .object [
      ("slug", .text "hero"), ("name", .text "Hero"),
      ("fields", .list [
        .object [("key", .text "title"), ("label", .text "Title"), ("type", .text "text")]])],
    .object [
      ("slug", .text "link"), ("name", .text "Link"),
      ("fields", .list [
        .object [("key", .text "url"), ("label", .text "URL"), ("type", .text "text")]])]]
  warnings := []

/-- Pages refer to one header and to many links, and each of the two tables has a key. -/
theorem exists_emits_rawPages : ∃ v m d compilation group base yields,
    rawPages.models = [v] ∧ ContentModel.check v = .accepted m ∧ rawPages.validate = .ok d ∧
    compileModels ([] ++ m :: []) d.components .standard = .ok compilation ∧
    compilation.groups[0]? = some group ∧ m.Emits d.components .standard group base yields ∧
    base.columns.map (·.typeSignature) =
      ["String", "PageHeader?", "PageLink[]", "DateTime", "DateTime"] ∧
    group.derived.map (·.name) =
      ["PageHeader", "PageHeaderTranslation", "PageLink", "PageLinkTranslation"] := by
  obtain ⟨v, m, d, compilation, hv, hm, hd, hcompilation, hgroups⟩ : ∃ v m d compilation,
      rawPages.models = [v] ∧ ContentModel.check v = .accepted m ∧ rawPages.validate = .ok d ∧
      compileModels ([] ++ m :: []) d.components .standard = .ok compilation ∧
      compilation.groups[0]?.map (fun g =>
          (g.own.head?.map (·.columns.map (·.typeSignature)), g.derived.map (·.name))) =
        some (some ["String", "PageHeader?", "PageLink[]", "DateTime", "DateTime"],
          ["PageHeader", "PageHeaderTranslation", "PageLink", "PageLinkTranslation"]) :=
    ⟨_, _, _, _, rfl, rfl, rfl, rfl, by decide +kernel⟩
  obtain ⟨group, base, yields, hgroup, hemits⟩ := exists_emits_of_compileModels hm hcompilation
  rw [show compilation.groups[0]? = some group from hgroup, Option.map_some, hemits.own] at hgroups
  obtain ⟨hbase, hderived⟩ := Prod.mk.inj (Option.some.inj hgroups)
  exact ⟨v, m, d, compilation, group, base, yields, hv, hm, hd, hcompilation, hgroup, hemits,
    Option.some.inj hbase, hderived⟩

end ContentSchema
