import ContentSchema.Proofs.Compilation.Indexes

/-!
# Names of columns

When the columns of a model's tables have different names (`ContentModel.nodup_columnNames_iff`).
Keys of fields are different and are none of the three columns that every table has.  The other
names that are made for columns are not kept free: the suffix of an identifier, the translations of
a row, and the key, the language and the way back of a translation.
-/

namespace ContentSchema

/-! ### Columns of fields -/

namespace Field

/-- No field is called like the column for the identifier of another one. -/
def Apart (fields : List Field) (settings : BuildSettings) : Prop :=
  ∀ f ∈ fields, ∀ g ∈ fields, f.columnName settings = f.key ++ "_id" →
    g.columnName settings = g.key → g.key ≠ f.key ++ "_id"

variable {f g : Field} {fields : List Field} {settings : BuildSettings}

/-- No column of a valid field is called like one that every table has. -/
theorem Valid.columnName_not_mem_systemKeys (hf : f.Valid) :
    f.columnName settings ∉ systemKeys := by
  rcases f.columnName_eq_or settings with h | h
  · rw [h]
    exact hf.own
  · rw [h]
    simp only [systemKeys, List.mem_cons, List.not_mem_nil, or_false, not_or]
    exact ⟨append_id_ne (by decide), append_id_ne (by decide), append_id_ne (by decide)⟩

/-- Fields with different keys have columns with different names if they are apart. -/
theorem nodup_map_columnName_iff (hkeys : (fields.map (·.key)).Nodup) :
    (fields.map (·.columnName settings)).Nodup ↔ Apart fields settings := by
  have hkey := fun f hf g hg => List.inj_on_of_nodup_map hkeys (x := f) hf (y := g) hg
  rw [List.nodup_map_iff_inj_on hkeys.of_map]
  constructor
  · intro hinjective f hf g hg hfname hgname heq
    obtain rfl := hinjective f hf g hg (by rw [hfname, hgname, heq])
    exact append_id_ne_self f.key heq.symm
  · intro hapart f hf g hg heq
    -- a name with the suffix and a key differ, as the fields are apart; otherwise the keys agree
    rcases f.columnName_eq_or settings with hfname | hfname <;>
      rcases g.columnName_eq_or settings with hgname | hgname
    · exact hkey f hf g hg (by rw [← hfname, heq, hgname])
    · exact absurd (by rw [← hfname, heq, hgname]) (hapart g hg f hf hgname hfname)
    · exact absurd (by rw [← hgname, ← heq, hfname]) (hapart f hf g hg hfname hgname)
    · refine hkey f hf g hg ((String.append_left_inj "_id").1 ?_)
      rw [← hfname, heq, hgname]

/-- The columns of fields by name. -/
theorem map_name_of_mapM_column {columns : List Column}
    (h : fields.mapM (·.column settings) = .ok columns) :
    columns.map (·.name) = fields.map (·.columnName settings) :=
  map_eq_map_of_forall₂ (mapM_eq_ok.1 h) fun _ _ _ h => (fits_of_column h).name

end Field

/-! ### Names that tables make up -/

section Names

variable {names : List String} {owner : String}

/-- Names in the middle of others differ from each other and from those around them. -/
theorem nodup_between_iff {before after : List String} : (before ++ names ++ after).Nodup ↔
    names.Nodup ∧ (before ++ after).Nodup ∧ ∀ name ∈ names, name ∉ before ++ after := by
  rw [(List.perm_append_comm.append_right after).nodup_iff, List.append_assoc, List.nodup_append']
  rfl

/-- The names of a base table differ if those between are not the one that may follow. -/
theorem nodup_baseNames_iff (hnames : ∀ name ∈ names, name ∉ Field.systemKeys) {last : List String}
    (hlast : last = [] ∨ last = ["translations"]) :
    ("id" :: names ++ ["created_at", "updated_at"] ++ last).Nodup ↔
      names.Nodup ∧ ∀ name ∈ names, name ∉ last := by
  have haround : (["id"] ++ (["created_at", "updated_at"] ++ last)).Nodup := by
    rcases hlast with rfl | rfl <;> decide
  have hother : (∀ name ∈ names, name ∉ Field.systemKeys ++ last) ↔ ∀ name ∈ names, name ∉ last :=
    forall₂_congr fun name hname => by rw [List.mem_append, or_iff_right (hnames name hname)]
  rw [List.append_assoc, ← hother]
  exact nodup_between_iff.trans (and_congr_right fun _ => and_iff_right haround)

/-- The names of a translation table differ if the way back is no fixed column and those between
are none of the names that are made up. -/
theorem nodup_translationNames_iff (hnames : ∀ name ∈ names, name ∉ Field.systemKeys) :
    (["id", Naming.foreignKeyName owner, "lang"] ++ names ++
        [Naming.backRelationName owner]).Nodup ↔
      names.Nodup ∧ Naming.backRelationName owner ∉ ["id", "lang"] ∧ ∀ name ∈ names,
        name ∉ [Naming.foreignKeyName owner, "lang", Naming.backRelationName owner] := by
  have hid : Naming.foreignKeyName owner ≠ "id" := Field.append_id_ne (by decide)
  have hlang : Naming.foreignKeyName owner ≠ "lang" := Field.append_id_ne (by decide)
  have hback : Naming.foreignKeyName owner ≠ Naming.backRelationName owner :=
    Field.append_id_ne_self _
  have haround : (["id", Naming.foreignKeyName owner, "lang"] ++
      [Naming.backRelationName owner]).Nodup ↔ Naming.backRelationName owner ∉ ["id", "lang"] := by
    simp [hid.symm, hlang, hback, eq_comm]
  have hother : ∀ name ∈ names, name ≠ "id" := by
    rintro name hname rfl
    exact hnames _ hname (by decide)
  rw [nodup_between_iff, haround]
  refine and_congr_right fun _ => and_congr_right fun _ => forall₂_congr fun name hname => ?_
  simp [hother name hname]

end Names

/-- The columns of a translation table by name. -/
theorem columnNames_of_translationTable {owner : String} {fields : List Field}
    {settings : BuildSettings} {mapName : Option String} {t : Table}
    (h : translationTable owner fields settings mapName = .ok t) :
    t.columnNames = ["id", Naming.foreignKeyName owner, "lang"] ++
      fields.map (·.columnName settings) ++ [Naming.backRelationName owner] := by
  obtain ⟨columns, toOwner, hcolumns, htoOwner, rfl⟩ := translationTable_eq_ok h
  rw [Column.backRelation_eq_ok htoOwner, Table.columnNames, translationTableOf, List.map_append,
    List.map_append, Field.map_name_of_mapM_column hcolumns]
  rfl

/-! ### Columns of a model -/

namespace ContentModel

/-- The fields of a model keep clear of each other's columns and of those that are made up. -/
structure NamesApart (m : ContentModel) (settings : BuildSettings)
    (available : Option (List String)) : Prop where
  /-- No field that keeps a column has the name of another one's identifier. -/
  kept : Field.Apart (m.storedFields.filter (keepsColumn settings available)) settings
  /-- If there are translations, no field that keeps a column is called by them. -/
  translations : m.movedFields settings ≠ [] → ∀ f ∈ m.storedFields,
    keepsColumn settings available f = true → f.columnName settings ≠ "translations"
  /-- No field that moves has the name of another one's identifier. -/
  moved : Field.Apart (m.movedFields settings) settings
  /-- No field that moves is called by the key, the language or the way back of a translation. -/
  own : ∀ f ∈ m.movedFields settings, f.columnName settings ∉
    [Naming.foreignKeyName (settings.tableName m.slug), "lang",
      Naming.backRelationName (settings.tableName m.slug)]
  /-- If there are translations, the model is not called by their identifier or language. -/
  back : m.movedFields settings ≠ [] →
    Naming.backRelationName (settings.tableName m.slug) ∉ ["id", "lang"]

variable {m : ContentModel} {settings : BuildSettings} {available : Option (List String)}
  {ts : List Table}

theorem Valid.columnName_not_mem_systemKeys (hm : m.Valid) {f : Field} (hf : f ∈ m.storedFields) :
    f.columnName settings ∉ Field.systemKeys :=
  (hm.fields f (List.mem_filter.1 hf).1).columnName_not_mem_systemKeys

/-- Stored fields that are picked have different keys. -/
theorem Valid.nodup_keys (hm : m.Valid) {fields : List Field}
    (h : fields.Sublist m.storedFields) : (fields.map (·.key)).Nodup :=
  hm.nodup.sublist ((h.trans List.filter_sublist).map _)

theorem movedFields_sublist : (m.movedFields settings).Sublist m.storedFields := by
  rw [movedFields]
  split
  · rw [splitTranslatable, List.partition_eq_filter_filter]
    exact List.filter_sublist
  · exact List.nil_sublist _

/-- The names of the base table's columns are different if those of the fields that keep one are. -/
theorem Valid.nodup_columnNames_baseTable (hm : m.Valid) {columns : List (Option Column)}
    (h : m.storedFields.mapM (baseColumn? (settings.tableName m.slug) settings available
      ((m.movedFields settings).map (·.key))) = .ok columns) :
    (m.baseTable settings columns).columnNames.Nodup ↔
      Field.Apart (m.storedFields.filter (keepsColumn settings available)) settings ∧
      (m.movedFields settings ≠ [] → ∀ f ∈ m.storedFields,
        keepsColumn settings available f = true → f.columnName settings ≠ "translations") := by
  have hnames : ∀ name ∈ (m.storedFields.filter (keepsColumn settings available)).map
      (·.columnName settings), name ∉ Field.systemKeys := by
    intro name hname
    obtain ⟨f, hf, rfl⟩ := List.mem_map.1 hname
    exact hm.columnName_not_mem_systemKeys (List.mem_filter.1 hf).1
  rw [hm.columnNames_baseTable h, nodup_baseNames_iff hnames (by split <;> simp),
    Field.nodup_map_columnName_iff (hm.nodup_keys List.filter_sublist), List.forall_mem_map]
  refine and_congr_right fun _ => ?_
  cases m.movedFields settings <;> simp

/-- So are those of the translation table's columns, if the fields that move keep clear of it. -/
theorem Valid.nodup_columnNames_translationTable (hm : m.Valid) {mapName : Option String}
    {t : Table} (h : translationTable (settings.tableName m.slug) (m.movedFields settings) settings
      mapName = .ok t) :
    t.columnNames.Nodup ↔ Field.Apart (m.movedFields settings) settings ∧
      Naming.backRelationName (settings.tableName m.slug) ∉ ["id", "lang"] ∧
      ∀ f ∈ m.movedFields settings, f.columnName settings ∉
        [Naming.foreignKeyName (settings.tableName m.slug), "lang",
          Naming.backRelationName (settings.tableName m.slug)] := by
  have hnames : ∀ name ∈ (m.movedFields settings).map (·.columnName settings),
      name ∉ Field.systemKeys := by
    intro name hname
    obtain ⟨f, hf, rfl⟩ := List.mem_map.1 hname
    exact hm.columnName_not_mem_systemKeys (mem_movedFields.1 hf).2.1
  rw [columnNames_of_translationTable h, nodup_translationNames_iff hnames,
    Field.nodup_map_columnName_iff (hm.nodup_keys movedFields_sublist), List.forall_mem_map]

/-- The columns of the tables of a valid model have different names exactly if its fields keep clear
of each other and of the names that are made up for columns. -/
theorem nodup_columnNames_iff {v : Value} (hm : ContentModel.check v = .accepted m)
    (hts : m.tables settings available = .ok ts) :
    (∀ t ∈ ts, t.columnNames.Nodup) ↔ m.NamesApart (m.effectiveSettings settings) available := by
  have hvalid := valid_of_check hm
  obtain ⟨-, columns, hcolumns, hcases⟩ := tables_eq_ok hts
  generalize m.effectiveSettings settings = used at *
  have hbase := hvalid.nodup_columnNames_baseTable hcolumns
  rcases hcases with ⟨hmoved, rfl⟩ | ⟨hmoved, t, ht, rfl⟩
  · rw [List.forall_mem_singleton, hbase]
    constructor
    · rintro ⟨hkept, htranslations⟩
      exact ⟨hkept, htranslations, by simp [Field.Apart, hmoved], by simp [hmoved],
        fun h => absurd hmoved h⟩
    · exact fun h => ⟨h.kept, h.translations⟩
  · rw [List.forall_mem_cons, List.forall_mem_singleton, hbase,
      hvalid.nodup_columnNames_translationTable ht]
    constructor
    · rintro ⟨⟨hkept, htranslations⟩, happart, hback, hown⟩
      exact ⟨hkept, htranslations, happart, hown, fun _ => hback⟩
    · exact fun h => ⟨⟨h.kept, h.translations⟩, h.moved, h.back hmoved, h.own⟩

/-- Posts with a title, which is translated, and a count of translations, which is not, as they are
given. -/
def rawTranslatedPost : Value := .object [
  ("slug", .text "post"), ("name", .text "Post"),
  ("fields", .list [
    .object [("key", .text "title"), ("label", .text "Title"), ("type", .text "text")],
    .object [("key", .text "translations"), ("label", .text "Translations"),
      ("type", .text "number"), ("translatable", .bool false)]])]

/-- The posts have a table of translations, and the count is called by them. -/
theorem taken_translations : ∃ m ts, ContentModel.check rawTranslatedPost = .accepted m ∧
    m.tables .standard none = .ok ts ∧ m.movedFields (m.effectiveSettings .standard) ≠ [] ∧
    ∃ f ∈ m.storedFields, keepsColumn (m.effectiveSettings .standard) none f = true ∧
      f.columnName (m.effectiveSettings .standard) = "translations" :=
  ⟨_, _, rfl, rfl, by decide +kernel, _, List.mem_cons_of_mem _ List.mem_cons_self,
    by decide +kernel, by decide +kernel⟩

/-- The table of the posts has two columns with this name. -/
theorem not_nodup_columnNames : ∃ m ts, ContentModel.check rawTranslatedPost = .accepted m ∧
    m.tables .standard none = .ok ts ∧ ¬ ∀ t ∈ ts, t.columnNames.Nodup := by
  obtain ⟨m, ts, hm, hts, hmoved, f, hf, hkeeps, hname⟩ := taken_translations
  refine ⟨m, ts, hm, hts, fun h => ?_⟩
  exact ((nodup_columnNames_iff hm hts).1 h).translations hmoved f hf hkeeps hname

end ContentModel

end ContentSchema
