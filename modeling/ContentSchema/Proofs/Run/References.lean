import ContentSchema.Proofs.Compilation.Fields
import ContentSchema.Proofs.Compilation.Whole
import ContentSchema.Proofs.Run.Checking

/-!
# Tables that columns refer to

After a clean report each column that is made for a field of a model, for a translation or for a way
back refers to a table of the schema.  Only the fields of embedded components are left open: they
are not looked at by the report (`RawDefinitions.tables_refersTo_iff_of_clean`).
-/

namespace ContentSchema

/-- Each column of the table is a scalar or has one of the names as its type. -/
def Table.RefersTo (t : Table) (names : List String) : Prop :=
  ∀ c ∈ t.columns, c.isScalar = true ∨ c.type ∈ names

/-- If the field refers to a table, its name is that of a scalar or one of the given names. -/
def Field.RefersTo (f : Field) (settings : BuildSettings) (names : List String) : Prop :=
  ∀ table ∈ f.referredTable? settings, table ∈ ScalarType.all.map (·.name) ∨ table ∈ names

/-- A stored field of a model embeds the component. -/
def Definitions.Embeds (d : Definitions) (component : Component) : Prop :=
  ∃ m ∈ d.models, ∃ f ∈ m.storedFields, ∃ c ∈ f.component?,
    d.components.find? c.slug = some component

variable {settings : BuildSettings} {names : List String} {owner : String} {t : Table}
  {ts : List Table}

/-! ### Fields -/

namespace Field

variable {f : Field} {c : Column}

/-- A field refers to names as its column does. -/
theorem Fits.refersTo_iff (h : f.Fits settings c) :
    f.RefersTo settings names ↔ c.isScalar = true ∨ c.type ∈ names := by
  rw [RefersTo, Column.isScalar_iff]
  cases hreferred : f.referredTable? settings with
  | none => simp [Column.isScalar_iff.1 (h.scalar hreferred)]
  | some table => simp [h.type table hreferred]

/-- Apart from components, fields refer to the table of media and to the targets of relations. -/
theorem refersTo_of_ne_component (htype : f.type ≠ .component)
    (hmedia : mediaTable ∈ settings.externalNames → mediaTable ∈ names)
    (htarget : ∀ r ∈ f.relation?, settings.targetName r.target ∈ names) :
    f.RefersTo settings names := by
  intro table htable
  rw [Option.mem_def, referredTable?.eq_def] at htable
  split at htable
  · split at htable
    · rename_i hmany
      cases htable
      exact Or.inr (hmedia hmany.2)
    · cases htable
  · obtain ⟨r, hr, rfl⟩ := Option.map_eq_some_iff.1 htable
    exact Or.inr (htarget r (Option.filter_eq_some_iff.1 hr).1)
  · exact absurd ‹_› htype
  · cases htable

/-- Whether translation is in effect does not matter for what a field refers to. -/
theorem refersTo_effectiveSettings (m : ContentModel) :
    f.RefersTo (m.effectiveSettings settings) names ↔ f.RefersTo settings names := by
  obtain ⟨translated, heq⟩ := m.effectiveSettings_eq settings
  rw [heq]
  rfl

end Field

/-! ### Columns that do not come from fields -/

theorem isScalar_of_mem_translation {c : Column}
    (h : c ∈ [Column.id, Column.string (Naming.foreignKeyName owner), Column.string "lang"]) :
    c.isScalar = true := by
  simp only [List.mem_cons, List.not_mem_nil, or_false] at h
  rcases h with rfl | rfl | rfl <;> rfl

theorem Embedding.isScalar_of_mem_fixedColumns {e : Embedding} {c : Column}
    (h : c ∈ e.fixedColumns) : c.isScalar = true := by
  have hvariant : ∀ c ∈ variantColumns, c.isScalar = true := by decide
  simp only [fixedColumns, List.mem_append, List.mem_cons, List.not_mem_nil, or_false] at h
  rcases h with (((rfl | rfl) | h) | h) | rfl | rfl
  · rfl
  · rfl
  · split at h
    · rw [List.mem_singleton.1 h]
      rfl
    · cases h
  · split at h
    · exact hvariant c h
    · cases h
  · rfl
  · rfl

theorem isScalar_of_mem_base :
    ∀ c ∈ [Column.id, Column.createdAt, Column.updatedAt], c.isScalar = true := by
  decide

/-! ### Tables of one definition -/

/-- The columns of fields refer to names exactly if the fields do. -/
theorem refersTo_columns_iff {fields : List Field} {columns : List Column}
    (h : fields.mapM (·.column settings) = .ok columns) :
    (∀ d ∈ columns, d.isScalar = true ∨ d.type ∈ names) ↔
      ∀ f ∈ fields, f.RefersTo settings names := by
  constructor
  · intro hcolumns f hf
    obtain ⟨d, hd, hfd⟩ := exists_of_mapM_of_mem h hf
    exact (Field.fits_of_column hfd).refersTo_iff.2 (hcolumns d hd)
  · intro hfields d hd
    obtain ⟨f, hf, hfd⟩ := exists_of_mem_mapM h hd
    exact (Field.fits_of_column hfd).refersTo_iff.1 (hfields f hf)

theorem refersTo_translationTable_iff {fields : List Field} {mapName : Option String}
    (h : translationTable owner fields settings mapName = .ok t) (howner : owner ∈ names) :
    t.RefersTo names ↔ ∀ f ∈ fields, f.RefersTo settings names := by
  obtain ⟨columns, toOwner, hcolumns, htoOwner, rfl⟩ := translationTable_eq_ok h
  rw [← refersTo_columns_iff hcolumns]
  constructor
  · intro ht d hd
    exact ht d (mem_translationTableOf.2 (Or.inr (Or.inl hd)))
  · intro hrefers d hd
    rcases mem_translationTableOf.1 hd with hd | hd | rfl
    · exact Or.inl (isScalar_of_mem_translation hd)
    · exact hrefers d hd
    · exact Or.inr (Column.type_of_backRelation htoOwner ▸ howner)

/-- The tables of an embedded component refer to names exactly if its stored fields do. -/
theorem Component.tables_refersTo_iff {c : Component} {e : Embedding}
    (h : c.tables e settings = .ok ts) (howner : e.owner ∈ names)
    (hnames : ts.map (·.name) ⊆ names) :
    (∀ t ∈ ts, t.RefersTo names) ↔ ∀ f ∈ c.storedFields, f.RefersTo settings names := by
  obtain ⟨-, columns, toOwner, hcolumns, htoOwner, hts⟩ := tables_eq_ok h
  have hmem := mem_of_alone_or_translated hts
  have hinstances : (c.instanceTable e settings columns toOwner).RefersTo names ↔
      ∀ f ∈ c.keptFields settings, f.RefersTo settings names := by
    rw [← refersTo_columns_iff hcolumns]
    constructor
    · intro ht d hd
      exact ht d (mem_instanceTable.2 (Or.inr (Or.inl hd)))
    · intro hrefers d hd
      rcases mem_instanceTable.1 hd with hd | hd | rfl | hd
      · exact Or.inl (Embedding.isScalar_of_mem_fixedColumns hd)
      · exact hrefers d hd
      · exact Or.inr (Column.type_of_backRelation htoOwner ▸ howner)
      · exact Or.inr (hnames (translations_mem_of_alone_or_translated hts hd))
  have hstored : (∀ f ∈ c.storedFields, f.RefersTo settings names) ↔
      (∀ f ∈ c.movedFields settings, f.RefersTo settings names) ∧
        ∀ f ∈ c.keptFields settings, f.RefersTo settings names := by
    simp only [@mem_storedFields_iff c settings, or_imp, forall_and]
  rw [hstored]
  rcases hts with ⟨hnil, rfl⟩ | ⟨-, t, ht, rfl⟩
  · rw [List.forall_mem_singleton, hinstances, hnil]
    simp
  · have htranslation : t.RefersTo names ↔
        ∀ f ∈ c.movedFields settings, f.RefersTo settings names :=
      refersTo_translationTable_iff ht (hnames (List.mem_map_of_mem hmem))
    rw [List.forall_mem_cons, List.forall_mem_singleton, hinstances, htranslation]
    exact and_comm

namespace ContentModel

variable {m : ContentModel} {available : Option (List String)}

/-- The column of a field on the base table refers to a name if the field does, or, for a
component, the table of its instances. -/
theorem refersTo_baseColumn? {moved : List String} {f : Field} {d : Column}
    (h : baseColumn? owner settings available moved f = .ok (some d))
    (hfield : f.type ≠ .component → f.RefersTo settings names)
    (hcomponent : ∀ c ∈ f.component?, lacksComponent available f = false →
      Naming.componentTableName owner f.key settings.convention ∈ names) :
    d.isScalar = true ∨ d.type ∈ names := by
  rw [baseColumn?] at h
  split at h
  · split at h
    · cases h
    · rename_i hlacks
      obtain ⟨d', hd', hd⟩ := map_eq_ok.1 h
      cases hd
      obtain ⟨⟨c, hc⟩, -, htype⟩ := Field.componentReference_eq_ok hd'
      rw [htype]
      exact Or.inr (hcomponent c hc (by simpa using hlacks))
  · rename_i htype
    split at h
    · cases h
    · obtain ⟨d', hd', hd⟩ := map_eq_ok.1 h
      cases hd
      exact (Field.fits_of_column hd').refersTo_iff.1 (hfield htype)

/-- The tables of a model refer to names if those of its fields that are no components do and the
tables of its components have one of the names. -/
theorem tables_refersTo (h : m.tables settings available = .ok ts)
    (hnames : ts.map (·.name) ⊆ names)
    (hfields : ∀ f ∈ m.storedFields, f.type ≠ .component →
      f.RefersTo (m.effectiveSettings settings) names)
    (hcomponents : ∀ f ∈ m.storedFields, ∀ c ∈ f.component?, lacksComponent available f = false →
      (m.embedding settings f c).tableName (m.effectiveSettings settings) ∈ names) :
    ∀ t ∈ ts, t.RefersTo names := by
  obtain ⟨-, columns, hcolumns, hts⟩ := tables_eq_ok h
  have hmem := mem_of_alone_or_translated hts
  have hbase : (m.baseTable (m.effectiveSettings settings) columns).RefersTo names := by
    intro d hd
    rcases mem_baseTable.1 hd with hd | hd | hd
    · exact Or.inl (isScalar_of_mem_base d hd)
    · obtain ⟨f, hf, hd⟩ := exists_of_mem_mapM hcolumns hd
      exact refersTo_baseColumn? hd (hfields f hf) (hcomponents f hf)
    · exact Or.inr (hnames (translations_mem_of_alone_or_translated hts hd))
  rcases hts with ⟨-, rfl⟩ | ⟨-, t, ht, rfl⟩
  · rw [List.forall_mem_singleton]
    exact hbase
  · rw [List.forall_mem_cons, List.forall_mem_singleton]
    refine ⟨hbase, (refersTo_translationTable_iff ht (hnames (List.mem_map_of_mem hmem))).2 ?_⟩
    intro f hf
    obtain ⟨-, hstored, htranslatable⟩ := mem_movedFields.1 hf
    -- components are never translated, so that a field that moved is none
    refine hfields f hstored fun htype => ?_
    rw [Field.isTranslatable, htype] at htranslatable
    cases htranslatable

end ContentModel

theorem Field.junctionTable_refersTo {f : Field} (h : f.junctionTable owner settings = .ok t)
    (howner : owner ∈ names) (htarget : ∀ r ∈ f.relation?, settings.targetName r.target ∈ names) :
    t.RefersTo names := by
  obtain ⟨r, toOwner, toTarget, hr, htoOwner, htoTarget, rfl, -⟩ := junctionTable_eq_ok h
  intro c hc
  simp only [junctionTableOf, List.mem_cons, List.not_mem_nil, or_false] at hc
  rcases hc with rfl | rfl | rfl | rfl | rfl | rfl | rfl
  · exact Or.inl rfl
  · exact Or.inl rfl
  · exact Or.inl rfl
  · exact Or.inl rfl
  · exact Or.inl rfl
  · exact Or.inr (Column.type_of_backRelation htoOwner ▸ howner)
  · rw [Column.type_of_backRelation htoTarget]
    exact Or.inr (htarget r (manyToMany?_eq_some.1 hr).1)

/-! ### Tables of a run -/

/-- The names of the tables of a compilation and of external tables, merged. -/
def Compilation.namesWith (c : Compilation) (external : List Table) : List String :=
  (mergeTables external c.tables).1.map (·.name)

section Compilation

variable {d : Definitions} {external : List Table} {compilation : Compilation}

theorem names_subset_namesWith :
    compilation.tables.map (·.name) ⊆ compilation.namesWith external := fun _ h =>
  mem_names_mergeTables.2 (Or.inr h)

theorem external_subset_namesWith : external.map (·.name) ⊆ compilation.namesWith external :=
  fun _ h => mem_names_mergeTables.2 (Or.inl h)

/-- The base table of each model is in the compilation. -/
theorem tableName_mem_namesWith
    (h : compileModels d.models d.components settings = .ok compilation) {m : ContentModel}
    (hm : m ∈ d.models) : m.tableName settings ∈ compilation.namesWith external := by
  obtain ⟨ts, hts, hsub⟩ := (tables_subset_of_mem h hm).1
  exact names_subset_namesWith
    (List.map_subset _ hsub (ContentModel.tableName_mem_of_tables hts))

/-- The relations of the models lead to merged tables. -/
theorem Definitions.Closed.targetName_mem_namesWith (hclosed : d.Closed (external.map (·.name)))
    (hsettings : ∀ name, name ∈ settings.externalNames ↔ name ∈ external.map (·.name))
    (h : compileModels d.models d.components settings = .ok compilation) {m : ContentModel}
    (hm : m ∈ d.models) {f : Field} (hf : f ∈ m.storedFields) :
    ∀ r ∈ f.relation?, settings.targetName r.target ∈ compilation.namesWith external := by
  intro r hr
  rw [BuildSettings.targetName]
  split
  · rename_i hmem
    exact external_subset_namesWith ((hsettings _).1 hmem)
  · rename_i hmem
    rcases hclosed.targets m hm f hf r hr with hslug | hname
    · obtain ⟨m', hm', hslug⟩ := List.mem_map.1 hslug
      rw [← hslug, ← ContentModel.tableName_eq]
      exact tableName_mem_namesWith h hm'
    · exact absurd ((hsettings _).2 hname) hmem

/-- The tables of a component that a model embeds refer to merged tables exactly if its stored
fields do. -/
theorem embedded_refersTo_iff
    (h : compileModels d.models d.components settings = .ok compilation) {m : ContentModel}
    (hm : m ∈ d.models) {component : Component} {f : Field} {c : ComponentConfig}
    (hts : component.tables (m.embedding settings f c) (m.effectiveSettings settings) = .ok ts)
    (hsub : ts ⊆ compilation.tables) :
    (∀ t ∈ ts, t.RefersTo (compilation.namesWith external)) ↔
      ∀ g ∈ component.storedFields, g.RefersTo settings (compilation.namesWith external) := by
  rw [Component.tables_refersTo_iff hts (tableName_mem_namesWith h hm)
    (List.Subset.trans (List.map_subset _ hsub) names_subset_namesWith)]
  exact forall₂_congr fun g _ => g.refersTo_effectiveSettings m

/-- If what the models lead to is known, all compiled columns are scalars or refer to merged tables,
exactly if those of the stored fields of embedded components do. -/
theorem Definitions.Closed.tables_refersTo_iff (hclosed : d.Closed (external.map (·.name)))
    (hsettings : ∀ name, name ∈ settings.externalNames ↔ name ∈ external.map (·.name))
    (h : compileModels d.models d.components settings = .ok compilation) :
    (∀ t ∈ compilation.tables, t.RefersTo (compilation.namesWith external)) ↔
      ∀ component, d.Embeds component → ∀ f ∈ component.storedFields,
        f.RefersTo settings (compilation.namesWith external) := by
  constructor
  · rintro hall component ⟨m, hm, f, hf, c, hc, hfind⟩
    obtain ⟨ts, hts, hsub⟩ := (tables_subset_of_mem h hm).2 f hf c hc component hfind
    exact (embedded_refersTo_iff h hm hts hsub).1 fun t ht => hall t (hsub ht)
  · intro hfields t ht
    cases made_of_mem_tables h ht with
    | @model m ts _ hm hts ht =>
      obtain ⟨⟨ts', hts', hsub⟩, hadditions⟩ := tables_subset_of_mem h hm
      rw [hts] at hts'
      cases hts'
      refine ContentModel.tables_refersTo hts
        (List.Subset.trans (List.map_subset _ hsub) names_subset_namesWith)
        (fun f hf htype => ?_) (fun f hf c hc _ => ?_) t ht
      · rw [Field.refersTo_effectiveSettings]
        exact Field.refersTo_of_ne_component htype
          (fun hmedia => external_subset_namesWith ((hsettings _).1 hmedia))
          (hclosed.targetName_mem_namesWith hsettings h hm hf)
      · -- the component is known, so that the table of its instances is there
        obtain ⟨component, hfind⟩ :=
          Components.mem_slugs_iff.1 (hclosed.components m hm f hf c hc)
        obtain ⟨inner, hinner, hsubInner⟩ := hadditions f hf c hc component hfind
        exact names_subset_namesWith
          (List.map_subset _ hsubInner (Component.tableName_mem_of_tables hinner))
    | @component m f c component ts _ hm hf hc hfind hts ht =>
      -- the report tells nothing of these fields
      obtain ⟨ts', hts', hsub⟩ := (tables_subset_of_mem h hm).2 f hf c hc component hfind
      rw [hts] at hts'
      cases hts'
      exact (embedded_refersTo_iff h hm hts hsub).2
        (hfields component ⟨m, hm, f, hf, c, hc, hfind⟩) t ht
    | @junction m f _ hm hf ht =>
      refine Field.junctionTable_refersTo ht (tableName_mem_namesWith h hm) fun r hr => ?_
      obtain ⟨translated, heq⟩ := m.effectiveSettings_eq settings
      rw [heq]
      exact hclosed.targetName_mem_namesWith hsettings h hm hf r hr

/-- Definitions with a clean report are valid.  All columns that are compiled from them are scalars
or refer to merged tables, exactly if those of the stored fields of embedded components do. -/
theorem RawDefinitions.tables_refersTo_iff_of_clean {raw : RawDefinitions}
    (hclean : (checkDefinitions raw.models raw.components (external.map (·.name))).Clean)
    (hsettings : ∀ name, name ∈ settings.externalNames ↔ name ∈ external.map (·.name)) :
    ∃ d, raw.validate = .ok d ∧
      ∀ compilation, compileModels d.models d.components settings = .ok compilation →
        ((∀ t ∈ compilation.tables, t.RefersTo (compilation.namesWith external)) ↔
          ∀ component, d.Embeds component → ∀ f ∈ component.storedFields,
            f.RefersTo settings (compilation.namesWith external)) := by
  obtain ⟨d, hd, hclosed⟩ := exists_validate_of_clean hclean
  exact ⟨d, hd, fun compilation => hclosed.tables_refersTo_iff hsettings⟩

end Compilation

/-- Posts with links, which have tags, but nothing tells what a tag is. -/
def rawLinks : RawDefinitions where
  models := [.object [
    ("slug", .text "post"), ("name", .text "Post"),
    ("fields", .list [
      .object [("key", .text "links"), ("label", .text "Links"), ("type", .text "component"),
        ("config", .object [("slug", .text "link")])]])]]
  components := [.object [
    ("slug", .text "link"), ("name", .text "Link"),
    ("fields", .list [
      .object [("key", .text "tags"), ("label", .text "Tags"), ("type", .text "relation"),
        ("config", .object [
          ("relationType", .text "oneToMany"), ("targetModel", .text "tag")])]])]]
  warnings := []

theorem clean_rawLinks :
    (checkDefinitions rawLinks.models rawLinks.components (([] : List Table).map (·.name))).Clean :=
  ⟨by decide +kernel, by decide +kernel, by decide +kernel⟩

/-- The posts embed links, whose tags refer to a table that nobody makes. -/
theorem lost_tag : ∃ d compilation, rawLinks.validate = .ok d ∧
    compileModels d.models d.components .standard = .ok compilation ∧
    ∃ component, d.Embeds component ∧ ∃ f ∈ component.storedFields,
      f.referredTable? .standard = some "Tag" ∧ "Tag" ∉ compilation.namesWith [] := by
  refine ⟨_, _, rfl, rfl, _, ⟨_, List.mem_cons_self, _, List.mem_cons_self, _, rfl, rfl⟩, _,
    List.mem_cons_self, rfl, ?_⟩
  decide +kernel

/-- The report about the posts is clean, and still a column refers to no table. -/
theorem not_tables_refersTo_rawLinks : ∃ d compilation, rawLinks.validate = .ok d ∧
    compileModels d.models d.components .standard = .ok compilation ∧
    ¬ ∀ t ∈ compilation.tables, t.RefersTo (compilation.namesWith []) := by
  obtain ⟨d, compilation, hd, hcompilation, component, hembeds, f, hf, hreferred, hlost⟩ := lost_tag
  obtain ⟨d', hd', hiff⟩ :=
    @RawDefinitions.tables_refersTo_iff_of_clean .standard [] rawLinks clean_rawLinks
      fun _ => Iff.rfl
  rw [hd] at hd'
  cases hd'
  refine ⟨d, compilation, hd, hcompilation, fun hall => ?_⟩
  rcases (hiff compilation hcompilation).1 hall component hembeds f hf "Tag" hreferred with
    hscalar | hname
  · exact absurd hscalar (by decide)
  · exact hlost hname

end ContentSchema
