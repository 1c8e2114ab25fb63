import ContentSchema.Proofs.Compilation.Fields
import ContentSchema.Proofs.Compilation.Tables

/-!
# Indexed columns

The columns of a model's base table by name (`ContentModel.columnNames_baseTable`), and when its
indexes stand for columns that it has (`ContentModel.indexes_subset_columnNames_iff`): an index
takes the keys of fields as they are, while a field may have moved to the translations, may have
lost its component or may be held under a name with a suffix.
-/

namespace ContentSchema

namespace ContentModel

variable {m : ContentModel} {settings : BuildSettings} {available : Option (List String)}
  {f : Field}

/-- Whether a field keeps a column on the base table: its component is not missing and it is not
translated. -/
def keepsColumn (settings : BuildSettings) (available : Option (List String)) (f : Field) : Bool :=
  !lacksComponent available f && !(settings.translated && f.isTranslatable)

/-! ### Columns of the base table -/

/-- Fields are told apart by their keys. -/
theorem Valid.mem_moved_iff (hm : m.Valid) (settings : BuildSettings) (hf : f ∈ m.storedFields) :
    f.key ∈ (m.movedFields settings).map (·.key) ↔
      settings.translated = true ∧ f.isTranslatable = true := by
  constructor
  · intro hkey
    obtain ⟨g, hg, hgkey⟩ := List.mem_map.1 hkey
    obtain ⟨htranslated, hstored, htranslatable⟩ := mem_movedFields.1 hg
    have heq : g = f := List.inj_on_of_nodup_map hm.nodup (List.mem_filter.1 hstored).1
      (List.mem_filter.1 hf).1 hgkey
    subst heq
    exact ⟨htranslated, htranslatable⟩
  · rintro ⟨htranslated, htranslatable⟩
    exact List.mem_map_of_mem (mem_movedFields.2 ⟨htranslated, hf, htranslatable⟩)

/-- A field that embeds no component lacks none. -/
theorem lacksComponent_eq_false (hf : f.Valid) (htype : f.type ≠ .component)
    (available : Option (List String)) : lacksComponent available f = false := by
  have hnone : f.component? = none := by
    rw [Option.eq_none_iff_forall_not_mem]
    exact fun e he => htype (hf.type_eq_component_iff.2 ⟨e, he⟩)
  unfold lacksComponent
  rw [hnone]
  cases available <;> rfl

/-- A field that keeps its column has it on the base table, and no other field has one. -/
theorem Valid.baseColumn?_eq (hm : m.Valid) (hf : f ∈ m.storedFields) (owner : String) :
    baseColumn? owner settings available ((m.movedFields settings).map (·.key)) f =
      if keepsColumn settings available f then some <$> f.tableColumn owner settings
      else pure none := by
  have hvalid := hm.fields f (List.mem_filter.1 hf).1
  rw [baseColumn?, Field.tableColumn]
  by_cases htype : f.type = .component
  · -- components are never translated, but they may be missing
    have htranslatable : f.isTranslatable = false := by rw [Field.isTranslatable, htype]
    rw [if_pos htype, if_pos htype]
    cases hlacks : lacksComponent available f <;> simp [keepsColumn, hlacks, htranslatable]
  · -- other fields are never missing, but they may be translated
    have hlacks := lacksComponent_eq_false hvalid htype available
    have hmoved : ((m.movedFields settings).map (·.key)).contains f.key =
        (settings.translated && f.isTranslatable) := by
      rw [Bool.eq_iff_iff, List.contains_iff_mem, hm.mem_moved_iff settings hf, Bool.and_eq_true]
    rw [if_neg htype, if_neg htype, hmoved, keepsColumn, hlacks]
    cases settings.translated && f.isTranslatable <;> rfl

/-- A field that keeps its column has it under its own name. -/
theorem Valid.name_of_baseColumn? (hm : m.Valid) (hf : f ∈ m.storedFields) {owner : String}
    {column : Option Column}
    (h : baseColumn? owner settings available ((m.movedFields settings).map (·.key)) f =
      .ok column) :
    column.map (·.name) =
      if keepsColumn settings available f then some (f.columnName settings) else none := by
  rw [hm.baseColumn?_eq hf] at h
  split at h
  · rename_i hkeeps
    obtain ⟨c, hc, h⟩ := map_eq_ok.1 h
    cases h
    rw [if_pos hkeeps, Option.map_some, Field.name_of_tableColumn hc]
  · rename_i hkeeps
    cases h
    rw [if_neg hkeeps, Option.map_none]

/-- The columns of the base table by name: those of the fields that keep one, between those that
every table has. -/
theorem Valid.columnNames_baseTable (hm : m.Valid) {columns : List (Option Column)}
    (h : m.storedFields.mapM (baseColumn? (settings.tableName m.slug) settings available
      ((m.movedFields settings).map (·.key))) = .ok columns) :
    (m.baseTable settings columns).columnNames =
      "id" ::
        (m.storedFields.filter (keepsColumn settings available)).map (·.columnName settings) ++
        ["created_at", "updated_at"] ++
        if (m.movedFields settings).isEmpty then [] else ["translations"] := by
  have hnames : columns.map (Option.map (·.name)) = m.storedFields.map fun f =>
      if keepsColumn settings available f then some (f.columnName settings) else none :=
    map_eq_map_of_forall₂ (mapM_eq_ok.1 h) fun f hf _ hcolumn => hm.name_of_baseColumn? hf hcolumn
  have hkept : (columns.filterMap id).map (·.name) =
      (m.storedFields.filter (keepsColumn settings available)).map (·.columnName settings) := by
    calc (columns.filterMap id).map (·.name)
        = (columns.map (Option.map (·.name))).filterMap id := by
          rw [List.map_filterMap, List.filterMap_map]
          rfl
      _ = m.storedFields.filterMap fun f =>
          if keepsColumn settings available f then some (f.columnName settings) else none := by
          rw [hnames, List.filterMap_map]
          rfl
      _ = _ := by
          rw [← List.filterMap_eq_filter, List.map_filterMap]
          refine List.filterMap_congr fun f _ => ?_
          by_cases hf : keepsColumn settings available f = true <;> simp [hf, Option.guard]
  rw [Table.columnNames, baseTable, List.map_append, List.map_append, List.map_cons, hkept]
  split <;> rfl

theorem Valid.mem_columnNames_baseTable (hm : m.Valid) {columns : List (Option Column)}
    (h : m.storedFields.mapM (baseColumn? (settings.tableName m.slug) settings available
      ((m.movedFields settings).map (·.key))) = .ok columns) {name : String} :
    name ∈ (m.baseTable settings columns).columnNames ↔ name ∈ Field.systemKeys ∨
      (name = "translations" ∧ m.movedFields settings ≠ []) ∨
      ∃ f ∈ m.storedFields, keepsColumn settings available f = true ∧
        f.columnName settings = name := by
  have htranslations :
      name ∈ (if (m.movedFields settings).isEmpty then [] else ["translations"]) ↔
        name = "translations" ∧ m.movedFields settings ≠ [] := by
    cases hmoved : m.movedFields settings <;> simp
  rw [hm.columnNames_baseTable h, List.mem_append, List.mem_append, List.mem_cons, htranslations,
    List.mem_map, Field.systemKeys]
  simp only [List.mem_filter, List.mem_cons, List.not_mem_nil, and_assoc, or_assoc, or_comm,
    or_left_comm]

/-! ### Indexes -/

/-- Every index of a valid model stands for columns of its table, exactly if each key of an index is
that of a column which every table has, or of the translations, or the name of the column of a field
that keeps it. -/
theorem indexes_subset_columnNames_iff {v : Value} {ts : List Table}
    (hm : ContentModel.check v = .accepted m) (hts : m.tables settings available = .ok ts) :
    (∀ t ∈ ts, ∀ keys ∈ t.indexes, keys ⊆ t.columnNames) ↔
      ∀ keys ∈ m.indexes, ∀ key ∈ keys, key ∈ Field.systemKeys ∨
        (key = "translations" ∧ m.movedFields (m.effectiveSettings settings) ≠ []) ∨
        ∃ f ∈ m.storedFields, keepsColumn (m.effectiveSettings settings) available f = true ∧
          f.columnName (m.effectiveSettings settings) = key := by
  have hvalid := valid_of_check hm
  obtain ⟨-, columns, hcolumns, hcases⟩ := tables_eq_ok hts
  generalize m.effectiveSettings settings = used at *
  -- a translation table has no indexes
  have hbase : (∀ t ∈ ts, ∀ keys ∈ t.indexes, keys ⊆ t.columnNames) ↔
      ∀ keys ∈ m.indexes, keys ⊆ (m.baseTable used columns).columnNames := by
    rcases hcases with ⟨-, rfl⟩ | ⟨-, t, ht, rfl⟩
    · rw [List.forall_mem_singleton]
      rfl
    · obtain ⟨_, _, -, -, rfl⟩ := translationTable_eq_ok ht
      rw [List.forall_mem_cons, List.forall_mem_singleton]
      simp [translationTableOf, baseTable]
  rw [hbase]
  exact forall₂_congr fun keys _ => forall₂_congr fun key _ =>
    hvalid.mem_columnNames_baseTable hcolumns

/-- Posts that are sorted by their title, which is translated, as they are given. -/
def rawSortedPost : Value := .object [
  ("slug", .text "post"), ("name", .text "Post"),
  ("fields", .list [
    .object [("key", .text "title"), ("label", .text "Title"), ("type", .text "text")]]),
  ("settings", .object [("sortField", .text "title")])]

/-- The posts have an index for titles, and no field that keeps a column of this name. -/
theorem lost_title : ∃ m ts, ContentModel.check rawSortedPost = .accepted m ∧
    m.tables .standard none = .ok ts ∧ ["title"] ∈ m.indexes ∧
    ∀ f ∈ m.storedFields, keepsColumn (m.effectiveSettings .standard) none f = false := by
  refine ⟨_, _, rfl, rfl, ?_⟩
  decide +kernel

/-- The index of the posts stands for no column of their table. -/
theorem not_indexes_subset_columnNames : ∃ m ts, ContentModel.check rawSortedPost = .accepted m ∧
    m.tables .standard none = .ok ts ∧ ¬ ∀ t ∈ ts, ∀ keys ∈ t.indexes, keys ⊆ t.columnNames := by
  obtain ⟨m, ts, hm, hts, hindex, hlost⟩ := lost_title
  refine ⟨m, ts, hm, hts, fun h => ?_⟩
  rcases (indexes_subset_columnNames_iff hm hts).1 h ["title"] hindex "title"
    List.mem_cons_self with hsystem | ⟨hname, -⟩ | ⟨f, hf, hkeeps, -⟩
  · exact absurd hsystem (by decide)
  · exact absurd hname (by decide)
  · rw [hlost f hf] at hkeeps
    cases hkeeps

end ContentModel

end ContentSchema
