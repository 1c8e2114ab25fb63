import ContentSchema.Proofs.Compilation.Columns
import ContentSchema.Proofs.Compilation.Fields

/-!
# Compiled tables

What the tables of a model, of an embedded component and of a relation from many to many consist of,
if there are any (`ContentModel.tables_eq_ok`, `Component.tables_eq_ok`,
`Field.junctionTable_eq_ok`).  Writable definitions become regular tables.
-/

namespace ContentSchema

open Text

/-! ### Translation tables -/

/-- The translation table of `owner` with the given columns. -/
def translationTableOf (owner : String) (columns : List Column) (toOwner : Column)
    (mapName : Option String) : Table where
  name := Naming.translationModelName owner
  columns := [Column.id, Column.string (Naming.foreignKeyName owner), Column.string "lang"] ++
    columns ++ [toOwner]
  indexes := []
  unique := [[Naming.foreignKeyName owner, "lang"]]
  mapName := mapName

theorem translationTable_eq_ok {owner : String} {fields : List Field} {settings : BuildSettings}
    {mapName : Option String} {t : Table}
    (h : translationTable owner fields settings mapName = .ok t) :
    ∃ columns toOwner, fields.mapM (·.column settings) = .ok columns ∧
      Column.backRelation owner (Naming.foreignKeyName owner) .cascade = .ok toOwner ∧
      t = translationTableOf owner columns toOwner mapName := by
  obtain ⟨columns, hcolumns, h⟩ := bind_eq_ok.1 h
  obtain ⟨toOwner, htoOwner, h⟩ := bind_eq_ok.1 h
  exact ⟨columns, toOwner, hcolumns, htoOwner, (Table.compiled_make_eq_ok.1 h).2⟩

/-- A table for fields that move has their columns. -/
theorem exists_columns_of_translationTable_of_ne {owner : String} {fields : List Field}
    {settings : BuildSettings} {mapName : Option String} {t : Table}
    (h : translationTable owner fields settings mapName = .ok t) (hne : fields ≠ []) :
    ∃ columns, columns ≠ [] ∧ fields.mapM (·.column settings) = .ok columns ∧
      t = translationTableOf owner columns (.wayBack owner .cascade) mapName := by
  obtain ⟨columns, toOwner, hcolumns, htoOwner, rfl⟩ := translationTable_eq_ok h
  rw [Column.backRelation_eq_ok htoOwner]
  refine ⟨columns, ?_, hcolumns, rfl⟩
  rintro rfl
  exact hne (List.forall₂_nil_right_iff.1 (mapM_eq_ok.1 hcolumns))

/-- The columns of a translation table are two keys and the language, those of the fields that move,
and the way back to the owner. -/
theorem mem_translationTableOf {owner : String} {columns : List Column} {toOwner c : Column}
    {mapName : Option String} :
    c ∈ (translationTableOf owner columns toOwner mapName).columns ↔
      c ∈ [Column.id, Column.string (Naming.foreignKeyName owner), Column.string "lang"] ∨
        c ∈ columns ∨ c = toOwner := by
  rw [translationTableOf, List.mem_append, List.mem_append, List.mem_singleton, or_assoc]

/-- A table stands alone, or a second one stands behind it for the fields that move. -/
theorem alone_or_translated_iff {moved : List Field} {base : Table} {second : Compiled Table}
    {ts : List Table} :
    (if moved.isEmpty then pure [base] else do
      let t ← second
      pure [base, t]) = Except.ok ts ↔
      (moved = [] ∧ ts = [base]) ∨ (moved ≠ [] ∧ ∃ t, second = .ok t ∧ ts = [base, t]) := by
  constructor
  · intro h
    split at h
    · rename_i hmoved
      cases h
      exact Or.inl ⟨List.isEmpty_iff.1 hmoved, rfl⟩
    · rename_i hmoved
      obtain ⟨t, ht, h⟩ := bind_eq_ok.1 h
      cases h
      exact Or.inr ⟨by simpa using hmoved, t, ht, rfl⟩
  · rintro (⟨rfl, rfl⟩ | ⟨hmoved, t, ht, rfl⟩)
    · rfl
    · rw [if_neg (by simpa using hmoved), ht]
      rfl

/-- What stands at the end of the first table is told by whether there is a second one. -/
theorem alone_or_translated_last_iff {moved : List Field} {first : Table}
    {base : List Column → Table} {last : List Column} {second : Compiled Table} {ts : List Table}
    (h : first = base (if moved.isEmpty then [] else last)) :
    ((moved = [] ∧ ts = [first]) ∨ (moved ≠ [] ∧ ∃ t, second = .ok t ∧ ts = [first, t])) ↔
      (moved = [] ∧ ts = [base []]) ∨
        (moved ≠ [] ∧ ∃ t, second = .ok t ∧ ts = [base last, t]) := by
  refine or_congr (and_congr_right fun hmoved => ?_) (and_congr_right fun hmoved => ?_)
  · rw [h, if_pos (List.isEmpty_iff.2 hmoved)]
  · rw [h, if_neg (by simpa using hmoved)]

/-- The first table is there in either case. -/
theorem mem_of_alone_or_translated {moved : List Field} {base : Table} {second : Compiled Table}
    {ts : List Table}
    (h : (moved = [] ∧ ts = [base]) ∨ (moved ≠ [] ∧ ∃ t, second = .ok t ∧ ts = [base, t])) :
    base ∈ ts := by
  rcases h with ⟨-, rfl⟩ | ⟨-, t, -, rfl⟩
  · exact List.mem_cons_self
  · exact List.mem_cons_self

/-- If there is a column of translations, their table is there. -/
theorem translations_mem_of_alone_or_translated {moved : List Field} {base : Table} {owner : String}
    {settings : BuildSettings} {mapName : Option String} {ts : List Table} {c : Column}
    (h : (moved = [] ∧ ts = [base]) ∨ (moved ≠ [] ∧ ∃ t,
      translationTable owner moved settings mapName = .ok t ∧ ts = [base, t]))
    (hc : c ∈ if moved.isEmpty then [] else [Column.translations owner]) :
    c.type ∈ ts.map (·.name) := by
  rcases h with ⟨rfl, -⟩ | ⟨hmoved, t, ht, rfl⟩
  · cases hc
  · obtain ⟨_, _, -, -, rfl⟩ := translationTable_eq_ok ht
    rw [if_neg (by simpa using hmoved)] at hc
    rw [List.mem_singleton.1 hc]
    exact List.mem_map.2 ⟨_, List.mem_cons_of_mem _ List.mem_cons_self, rfl⟩

/-! ### Component tables -/

/-- The name of the table of a component's instances. -/
def Embedding.tableName (e : Embedding) (settings : BuildSettings) : String :=
  Naming.componentTableName e.owner e.key settings.convention

/-- The columns that instances have besides those of fields and the references. -/
def Embedding.fixedColumns (e : Embedding) : List Column :=
  [Column.id, { Column.string (Naming.foreignKeyName e.owner) with
    attributes := if e.repeatable then [] else ["@unique"] }] ++
  (if e.repeatable then [Column.order] else []) ++
  (if e.context.any (·.hasVariants) then variantColumns else []) ++
  [Column.createdAt, Column.updatedAt]

namespace Component

/-- The fields of a component that move to a translation table. -/
def movedFields (c : Component) (settings : BuildSettings) : List Field :=
  (c.placeFields settings).1

/-- The fields of a component that stay with its instances. -/
def keptFields (c : Component) (settings : BuildSettings) : List Field :=
  (c.placeFields settings).2

/-- The table of a component's instances with the given columns. -/
def instanceTable (c : Component) (e : Embedding) (settings : BuildSettings) (columns : List Column)
    (toOwner : Column) : Table where
  name := e.tableName settings
  columns := [Column.id, { Column.string (Naming.foreignKeyName e.owner) with
      attributes := if e.repeatable then [] else ["@unique"] }] ++
    (if e.repeatable then [Column.order] else []) ++
    (if e.context.any (·.hasVariants) then variantColumns else []) ++ columns ++
    [Column.createdAt, Column.updatedAt, toOwner] ++
    (if (c.movedFields settings).isEmpty then [] else [Column.translations (e.tableName settings)])
  indexes := if e.repeatable then [[Naming.foreignKeyName e.owner]] else []
  unique := []
  mapName := none

variable {c : Component} {e : Embedding} {settings : BuildSettings} {ts : List Table}

theorem mem_instanceTable {columns : List Column} {toOwner d : Column} :
    d ∈ (c.instanceTable e settings columns toOwner).columns ↔
      d ∈ e.fixedColumns ∨ d ∈ columns ∨ d = toOwner ∨
        d ∈ if (c.movedFields settings).isEmpty then []
          else [Column.translations (e.tableName settings)] := by
  -- the columns are the same, in another order
  simp only [instanceTable, Embedding.fixedColumns, List.mem_append, List.mem_cons,
    List.not_mem_nil]
  grind

/-- The tables of an embedded component are its instances and, if fields move, their
translations. -/
theorem tables_eq_ok (h : c.tables e settings = .ok ts) :
    e.tableName settings ≠ "" ∧ ∃ columns toOwner,
      (c.keptFields settings).mapM (·.column settings) = .ok columns ∧
      Column.backRelation e.owner (Naming.foreignKeyName e.owner) .cascade = .ok toOwner ∧
      ((c.movedFields settings = [] ∧ ts = [c.instanceTable e settings columns toOwner]) ∨
        (c.movedFields settings ≠ [] ∧ ∃ t,
          translationTable (e.tableName settings) (c.movedFields settings) settings
            (some (Naming.snakeCase (Naming.translationModelName (e.tableName settings)))) = .ok t ∧
          ts = [c.instanceTable e settings columns toOwner, t])) := by
  obtain ⟨columns, hcolumns, h⟩ := bind_eq_ok.1 h
  obtain ⟨toOwner, htoOwner, h⟩ := bind_eq_ok.1 h
  obtain ⟨instances, hinstances, h⟩ := bind_eq_ok.1 h
  obtain ⟨hname, rfl⟩ := Table.compiled_make_eq_ok.1 hinstances
  exact ⟨hname, columns, toOwner, hcolumns, htoOwner, alone_or_translated_iff.1 h⟩

/-- The table of the instances is there under its name. -/
theorem tableName_mem_of_tables (h : c.tables e settings = .ok ts) :
    e.tableName settings ∈ ts.map (·.name) := by
  obtain ⟨-, columns, toOwner, -, -, hts⟩ := tables_eq_ok h
  exact List.mem_map.2 ⟨_, mem_of_alone_or_translated hts, rfl⟩

/-- The fields that move and those that stay are stored fields. -/
theorem mem_storedFields_iff {f : Field} :
    f ∈ c.storedFields ↔ f ∈ c.movedFields settings ∨ f ∈ c.keptFields settings := by
  rw [movedFields, keptFields, placeFields]
  split
  · rw [splitTranslatable, List.partition_eq_filter_filter, List.mem_filter, List.mem_filter]
    simp only [Function.comp_apply]
    cases f.isTranslatable <;> simp
  · simp

end Component

/-! ### Model tables -/

namespace ContentModel

/-- The base table of a model with the given columns. -/
def baseTable (m : ContentModel) (settings : BuildSettings) (columns : List (Option Column)) :
    Table where
  name := settings.tableName m.slug
  columns := Column.id :: columns.filterMap id ++ [Column.createdAt, Column.updatedAt] ++
    (if (m.movedFields settings).isEmpty then []
      else [Column.translations (settings.tableName m.slug)])
  indexes := m.indexes
  unique := []
  mapName := none

variable {m : ContentModel} {settings : BuildSettings} {available : Option (List String)}
  {ts : List Table}

theorem mem_baseTable {columns : List (Option Column)} {c : Column} :
    c ∈ (m.baseTable settings columns).columns ↔
      c ∈ [Column.id, Column.createdAt, Column.updatedAt] ∨ some c ∈ columns ∨
        c ∈ if (m.movedFields settings).isEmpty then []
          else [Column.translations (settings.tableName m.slug)] := by
  simp only [baseTable, List.cons_append, List.mem_cons, List.mem_append, List.mem_filterMap,
    id_eq, exists_eq_right, List.not_mem_nil, or_assoc, or_comm, or_left_comm]

/-- The tables of a model are its base table and, if fields move, their translations. -/
theorem tables_eq_ok (h : m.tables settings available = .ok ts) :
    let settings := m.effectiveSettings settings
    settings.tableName m.slug ≠ "" ∧ ∃ columns,
      m.storedFields.mapM (baseColumn? (settings.tableName m.slug) settings available
        ((m.movedFields settings).map (·.key))) = .ok columns ∧
      ((m.movedFields settings = [] ∧ ts = [m.baseTable settings columns]) ∨
        (m.movedFields settings ≠ [] ∧ ∃ t,
          translationTable (settings.tableName m.slug) (m.movedFields settings) settings
            (some (Naming.translationTableName (settings.tableName m.slug) settings.pattern)) =
              .ok t ∧
          ts = [m.baseTable settings columns, t])) := by
  obtain ⟨columns, hcolumns, h⟩ := bind_eq_ok.1 h
  obtain ⟨base, hbase, h⟩ := bind_eq_ok.1 h
  obtain ⟨hname, rfl⟩ := Table.compiled_make_eq_ok.1 hbase
  exact ⟨hname, columns, hcolumns, alone_or_translated_iff.1 h⟩

/-- The base table is there under its name. -/
theorem tableName_mem_of_tables (h : m.tables settings available = .ok ts) :
    (m.effectiveSettings settings).tableName m.slug ∈ ts.map (·.name) := by
  obtain ⟨-, columns, -, hts⟩ := tables_eq_ok h
  exact List.mem_map.2 ⟨_, mem_of_alone_or_translated hts, rfl⟩

/-- The fields that move are stored, and they are those that are translated. -/
theorem mem_movedFields {f : Field} : f ∈ m.movedFields settings ↔
    settings.translated = true ∧ f ∈ m.storedFields ∧ f.isTranslatable = true := by
  rw [movedFields]
  split
  · rename_i htranslated
    rw [splitTranslatable, List.partition_eq_filter_filter, List.mem_filter]
    simp [htranslated]
  · rename_i htranslated
    simp [htranslated]

end ContentModel

/-! ### Junction tables -/

/-- The table between an owner and a target with the given relation columns. -/
def junctionTableOf (owner target : String) (settings : BuildSettings)
    (toOwner toTarget : Column) : Table where
  name := Naming.junctionTableName owner target settings.convention
  columns := [
    Column.id, Column.string (Naming.foreignKeyName owner),
    Column.string (Naming.foreignKeyName target), Column.order, Column.createdAt, toOwner, toTarget]
  indexes := [[Naming.foreignKeyName owner], [Naming.foreignKeyName target]]
  unique := [[Naming.foreignKeyName owner, Naming.foreignKeyName target]]
  mapName := none

theorem Field.junctionTable_eq_ok {f : Field} {owner : String} {settings : BuildSettings}
    {t : Table} (h : f.junctionTable owner settings = .ok t) :
    ∃ c toOwner toTarget, f.manyToMany? = some c ∧
      Column.backRelation owner (Naming.foreignKeyName owner) c.cascade.ownerAction = .ok toOwner ∧
      Column.backRelation (settings.targetName c.target)
        (Naming.foreignKeyName (settings.targetName c.target)) .cascade = .ok toTarget ∧
      t = junctionTableOf owner (settings.targetName c.target) settings toOwner toTarget ∧
      t.name ≠ "" := by
  rw [junctionTable.eq_def] at h
  split at h
  · cases h
  · rename_i c hc
    obtain ⟨toOwner, htoOwner, h⟩ := bind_eq_ok.1 h
    obtain ⟨toTarget, htoTarget, h⟩ := bind_eq_ok.1 h
    obtain ⟨hname, rfl⟩ := Table.compiled_make_eq_ok.1 h
    exact ⟨c, toOwner, toTarget, hc, htoOwner, htoTarget, rfl, hname⟩

theorem Field.manyToMany?_eq_some {f : Field} {c : RelationConfig} :
    f.manyToMany? = some c ↔ f.relation? = some c ∧ c.cardinality = .manyToMany := by
  rw [manyToMany?.eq_def]
  split
  · rename_i r hr
    split
    · rename_i hmany
      rw [hr]
      constructor
      · rintro ⟨⟩
        exact ⟨rfl, hmany⟩
      · exact fun h => h.1
    · rename_i hmany
      rw [hr]
      constructor
      · rintro ⟨⟩
      · rintro ⟨⟨⟩, h⟩
        exact absurd h hmany
  · rename_i hr
    rw [hr]
    simp

/-- A field that embeds a component is no relation. -/
theorem Field.manyToMany?_eq_none {f : Field} {c : ComponentConfig} (hc : f.component? = some c) :
    f.manyToMany? = none := by
  rw [Option.eq_none_iff_forall_not_mem]
  intro r hr
  have hconfig := relation?_eq_some.1 (manyToMany?_eq_some.1 hr).1
  rw [component?_eq_some.1 hc] at hconfig
  cases hconfig

/-! ### Settings in effect -/

/-- The settings in effect for a model are those of the run, but for translation. -/
theorem ContentModel.effectiveSettings_eq (m : ContentModel) (settings : BuildSettings) :
    ∃ translated, m.effectiveSettings settings = { settings with translated := translated } := by
  rw [effectiveSettings]
  split
  · exact ⟨false, rfl⟩
  · exact ⟨settings.translated, rfl⟩

theorem BuildSettings.Plain.effectiveSettings {settings : BuildSettings} (h : settings.Plain)
    (m : ContentModel) : (m.effectiveSettings settings).Plain := by
  obtain ⟨translated, heq⟩ := m.effectiveSettings_eq settings
  rw [heq]
  exact ⟨h.convention, h.lead, h.external⟩

theorem Field.Writable.effectiveSettings {f : Field} {settings : BuildSettings}
    (h : f.Writable settings) (m : ContentModel) : f.Writable (m.effectiveSettings settings) := by
  obtain ⟨translated, heq⟩ := m.effectiveSettings_eq settings
  rw [heq]
  exact ⟨h.valid, h.target, h.rules⟩

/-! ### Compiled tables are regular -/

section Regular

variable {settings : BuildSettings} {owner : String} {t : Table} {ts : List Table}

theorem wordy_lang : Wordy "lang".toList := by decide

theorem regular_translationTable (hs : settings.Plain) (howner : Wordy owner.toList)
    {fields : List Field} (hfields : ∀ f ∈ fields, f.Writable settings) {mapName : Option String}
    (hmap : ∀ n ∈ mapName, Unbroken n.toList)
    (h : translationTable owner fields settings mapName = .ok t) : t.Regular := by
  obtain ⟨columns, toOwner, hcolumns, htoOwner, rfl⟩ := translationTable_eq_ok h
  have hkey := Naming.wordy_foreignKeyName howner
  refine ⟨Column.append_ne_empty (by decide), Naming.wordy_translationModelName_iff.2 howner,
    by simp [translationTableOf], fun c hc => ?_, fun names hnames n hn => ?_, hmap⟩
  · rcases mem_translationTableOf.1 hc with hc | hc | rfl
    · simp only [List.mem_cons, List.not_mem_nil, or_false] at hc
      rcases hc with rfl | rfl | rfl
      · exact Column.regular_id
      · exact Column.regular_string hkey (Column.foreignKeyName_ne owner)
      · exact Column.regular_string wordy_lang (by decide)
    · obtain ⟨f, hf, hc⟩ := exists_of_mem_mapM hcolumns hc
      exact (hfields f hf).regular_column hs hc
    · exact Column.regular_backRelation howner htoOwner
  · simp only [translationTableOf, List.nil_append, List.mem_singleton] at hnames
    subst hnames
    simp only [List.mem_cons, List.not_mem_nil, or_false] at hn
    rcases hn with rfl | rfl
    · exact hkey.solid.unbroken
    · exact wordy_lang.solid.unbroken

theorem regular_of_mem_translations (hname : Wordy owner.toList) {moved : List Field} {c : Column}
    (hc : c ∈ if moved.isEmpty then [] else [Column.translations owner]) : c.Regular := by
  split at hc
  · cases hc
  · rw [List.mem_singleton.1 hc]
    exact Column.regular_translations hname

theorem Embedding.regular_of_mem_fixedColumns {e : Embedding} (howner : Wordy e.owner.toList)
    {c : Column} (hc : c ∈ e.fixedColumns) : c.Regular := by
  simp only [fixedColumns, List.mem_append, List.mem_cons, List.not_mem_nil, or_false] at hc
  rcases hc with (((rfl | rfl) | hc) | hc) | rfl | rfl
  · exact Column.regular_id
  · have hunique : ∀ a ∈ ["@unique"], a ∈ Column.ownAttributes := by decide
    refine { Column.regular_string (Naming.wordy_foreignKeyName howner)
      (Column.foreignKeyName_ne e.owner) with attributes := ?_ }
    split
    · simp
    · exact hunique
  · split at hc
    · rw [List.mem_singleton.1 hc]
      exact Column.regular_order
    · cases hc
  · split at hc
    · exact Column.regular_of_mem_variantColumns hc
    · cases hc
  · exact Column.regular_createdAt
  · exact Column.regular_updatedAt

/-- The fields of the component are writable. -/
def Component.Writable (c : Component) (settings : BuildSettings) : Prop :=
  ∀ f ∈ c.fields, f.Writable settings

namespace Component.Writable

variable {c : Component} {e : Embedding}

theorem of_mem_storedFields (hc : c.Writable settings) {f : Field} (hf : f ∈ c.storedFields) :
    f.Writable settings :=
  hc f (List.mem_filter.1 hf).1

theorem regular_instanceTable (hs : settings.Plain) (hc : c.Writable settings)
    (howner : Wordy e.owner.toList) (hname : Wordy (e.tableName settings).toList)
    (hne : e.tableName settings ≠ "") {columns : List Column} {toOwner : Column}
    (hcolumns : (c.keptFields settings).mapM (·.column settings) = .ok columns)
    (htoOwner : Column.backRelation e.owner (Naming.foreignKeyName e.owner) .cascade =
      .ok toOwner) :
    (c.instanceTable e settings columns toOwner).Regular := by
  refine ⟨hne, hname, by simp [instanceTable], fun d hd => ?_, fun names hnames n hn => ?_,
    by simp [instanceTable]⟩
  · rcases mem_instanceTable.1 hd with hd | hd | rfl | hd
    · exact Embedding.regular_of_mem_fixedColumns howner hd
    · obtain ⟨f, hf, hd⟩ := exists_of_mem_mapM hcolumns hd
      have hstored : f ∈ c.storedFields := mem_storedFields_iff.2 (Or.inr hf)
      exact (hc.of_mem_storedFields hstored).regular_column hs hd
    · exact Column.regular_backRelation howner htoOwner
    · exact regular_of_mem_translations hname hd
  · simp only [instanceTable, List.append_nil] at hnames
    split at hnames
    · rw [List.mem_singleton.1 hnames, List.mem_singleton] at hn
      rw [hn]
      exact (Naming.wordy_foreignKeyName howner).solid.unbroken
    · cases hnames

theorem regular_of_tables (hs : settings.Plain) (hc : c.Writable settings)
    (howner : Wordy e.owner.toList) (hkey : Reader.isSlug e.key = true)
    (h : c.tables e settings = .ok ts) : ∀ t ∈ ts, t.Regular := by
  obtain ⟨hne, columns, toOwner, hcolumns, htoOwner, hts⟩ := tables_eq_ok h
  have hname : Wordy (e.tableName settings).toList :=
    (Naming.wordy_componentTableName_iff (Naming.handle_of_isSlug hkey)).2
      ⟨howner, fun hsnake => absurd hsnake hs.convention⟩
  have hinstances := hc.regular_instanceTable hs howner hname hne hcolumns htoOwner
  have hmoved : ∀ f ∈ c.movedFields settings, f.Writable settings := fun f hf =>
    hc.of_mem_storedFields (mem_storedFields_iff.2 (Or.inl hf))
  rcases hts with ⟨-, rfl⟩ | ⟨-, t', ht', rfl⟩
  · rw [List.forall_mem_singleton]
    exact hinstances
  · rw [List.forall_mem_cons, List.forall_mem_singleton]
    refine ⟨hinstances, regular_translationTable hs hname hmoved ?_ ht'⟩
    rintro n ⟨⟩
    exact (Naming.wordy_snakeCase (Naming.wordy_translationModelName_iff.2 hname)).solid.unbroken

end Component.Writable

/-- The slug of the model is one, its fields are writable, and the key by which it is sorted stands
on one line. -/
structure ContentModel.Writable (m : ContentModel) (settings : BuildSettings) : Prop where
  /-- The slug is a slug. -/
  slug : Reader.isSlug m.slug = true
  /-- The fields are writable. -/
  fields : ∀ f ∈ m.fields, f.Writable settings
  /-- The key by which the model is sorted stands on one line. -/
  sortField : ∀ key ∈ m.settings.sortField, Unbroken key.toList

namespace ContentModel.Writable

variable {m : ContentModel}

theorem effectiveSettings (hm : m.Writable settings) : m.Writable (m.effectiveSettings settings) :=
  ⟨hm.slug, fun f hf => (hm.fields f hf).effectiveSettings m, hm.sortField⟩

theorem unbroken_of_mem_indexes (hm : m.Writable settings) {names : List String}
    (hnames : names ∈ m.indexes) : ∀ n ∈ names, Unbroken n.toList := by
  intro n hn
  rw [indexes] at hnames
  rcases List.mem_append.1 hnames with hnames | hnames
  · split at hnames
    · rename_i key hkey
      split at hnames
      · cases hnames
      · rw [List.mem_singleton.1 hnames, List.mem_singleton] at hn
        rw [hn]
        exact hm.sortField key hkey
    · cases hnames
  · split at hnames
    · rw [List.mem_singleton.1 hnames] at hn
      have hall : ∀ n ∈ statusIndex, Unbroken n.toList := by decide
      exact hall n hn
    · cases hnames

theorem regular_of_baseColumn? (hs : settings.Plain) {f : Field} (hf : f.Writable settings)
    (howner : Wordy owner.toList) {available : Option (List String)} {moved : List String}
    {c : Column} (h : baseColumn? owner settings available moved f = .ok (some c)) :
    c.Regular := by
  rw [baseColumn?] at h
  split at h
  · split at h
    · cases h
    · obtain ⟨d, hd, h⟩ := map_eq_ok.1 h
      cases h
      exact hf.regular_componentReference hs howner hd
  · split at h
    · cases h
    · obtain ⟨d, hd, h⟩ := map_eq_ok.1 h
      cases h
      exact hf.regular_column hs hd

theorem regular_baseTable (hs : settings.Plain) (hm : m.Writable settings)
    (hne : settings.tableName m.slug ≠ "") {available : Option (List String)}
    {columns : List (Option Column)}
    (hcolumns : m.storedFields.mapM (baseColumn? (settings.tableName m.slug) settings available
      ((m.movedFields settings).map (·.key))) = .ok columns) :
    (m.baseTable settings columns).Regular := by
  have hname : Wordy (settings.tableName m.slug).toList :=
    BuildSettings.wordy_tableName hs.lead hm.slug
  refine ⟨hne, hname, by simp [baseTable], fun c hc => ?_, fun names hnames => ?_,
    by simp [baseTable]⟩
  · rcases mem_baseTable.1 hc with hc | hc | hc
    · simp only [List.mem_cons, List.not_mem_nil, or_false] at hc
      rcases hc with rfl | rfl | rfl
      · exact Column.regular_id
      · exact Column.regular_createdAt
      · exact Column.regular_updatedAt
    · obtain ⟨f, hf, hc⟩ := exists_of_mem_mapM hcolumns hc
      exact regular_of_baseColumn? hs (hm.fields f (List.mem_filter.1 hf).1) hname hc
    · exact regular_of_mem_translations hname hc
  · rw [baseTable, List.append_nil] at hnames
    exact hm.unbroken_of_mem_indexes hnames

theorem regular_of_tables (hs : settings.Plain) (hm : m.Writable settings)
    (hpattern : Unbroken settings.pattern.toList) {available : Option (List String)}
    (h : m.tables settings available = .ok ts) : ∀ t ∈ ts, t.Regular := by
  obtain ⟨hne, columns, hcolumns, hts⟩ := tables_eq_ok h
  have hs' := hs.effectiveSettings m
  have hm' := hm.effectiveSettings
  have hpattern' : (m.effectiveSettings settings).pattern = settings.pattern := by
    obtain ⟨translated, heq⟩ := m.effectiveSettings_eq settings
    rw [heq]
  generalize m.effectiveSettings settings = used at *
  have hbase := hm'.regular_baseTable hs' hne hcolumns
  rcases hts with ⟨-, rfl⟩ | ⟨-, t', ht', rfl⟩
  · rw [List.forall_mem_singleton]
    exact hbase
  · rw [List.forall_mem_cons, List.forall_mem_singleton]
    refine ⟨hbase, regular_translationTable hs' hbase.name (fun f hf => ?_) ?_ ht'⟩
    · exact hm'.fields f (List.mem_filter.1 (mem_movedFields.1 hf).2.1).1
    · rintro n ⟨⟩
      exact Naming.unbroken_translationTableName hbase.name (by rwa [hpattern'])

end ContentModel.Writable

theorem Field.Writable.regular_junctionTable {f : Field} (hs : settings.Plain)
    (hf : f.Writable settings) (howner : Wordy owner.toList)
    (h : f.junctionTable owner settings = .ok t) : t.Regular := by
  obtain ⟨c, toOwner, toTarget, hc, htoOwner, htoTarget, rfl, hne⟩ := junctionTable_eq_ok h
  have htarget : Wordy (settings.targetName c.target).toList :=
    BuildSettings.wordy_targetName hs.lead hs.external (hf.target c (manyToMany?_eq_some.1 hc).1)
  have hown := Naming.wordy_foreignKeyName howner
  have hother := Naming.wordy_foreignKeyName htarget
  refine ⟨hne, Naming.wordy_junctionTableName_iff.2 ⟨howner, htarget⟩, by simp [junctionTableOf],
    fun d hd => ?_, fun names hnames n hn => ?_, by simp [junctionTableOf]⟩
  · simp only [junctionTableOf, List.mem_cons, List.not_mem_nil, or_false] at hd
    rcases hd with rfl | rfl | rfl | rfl | rfl | rfl | rfl
    · exact Column.regular_id
    · exact Column.regular_string hown (Column.foreignKeyName_ne owner)
    · exact Column.regular_string hother (Column.foreignKeyName_ne _)
    · exact Column.regular_order
    · exact Column.regular_createdAt
    · exact Column.regular_backRelation howner htoOwner
    · exact Column.regular_backRelation htarget htoTarget
  · have hkeys : n = Naming.foreignKeyName owner ∨
        n = Naming.foreignKeyName (settings.targetName c.target) := by
      simp only [junctionTableOf, List.cons_append, List.nil_append, List.mem_cons,
        List.not_mem_nil, or_false] at hnames
      rcases hnames with rfl | rfl | rfl
      · exact Or.inl (List.mem_singleton.1 hn)
      · exact Or.inr (List.mem_singleton.1 hn)
      · simpa using hn
    rcases hkeys with rfl | rfl
    · exact hown.solid.unbroken
    · exact hother.solid.unbroken

end Regular

end ContentSchema
