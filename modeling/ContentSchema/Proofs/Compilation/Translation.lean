import ContentSchema.Proofs.Compilation.Indexes

/-!
# What translation moves

Translation makes no columns of fields and loses none: those of translated fields move to a table of
their own, all others stay, each as it is and in its order (`ContentModel.exists_split_of_tables`).
Which fields move is decided by their keys, so that this rests on the keys of a valid model being
different.
-/

namespace ContentSchema

namespace Field

variable {f : Field}

/-- Components are never translated. -/
theorem type_ne_component (h : f.isTranslatable = true) : f.type ≠ .component := by
  intro htype
  rw [isTranslatable, htype] at h
  cases h

/-- Relations are never translated. -/
theorem type_ne_relation (h : f.isTranslatable = true) : f.type ≠ .relation := by
  intro htype
  rw [isTranslatable, htype] at h
  cases h

theorem tableColumn_of_isTranslatable (h : f.isTranslatable = true) (owner : String)
    (settings : BuildSettings) : f.tableColumn owner settings = f.column settings :=
  if_neg (type_ne_component h)

end Field

namespace ContentModel

variable {m : ContentModel} {settings : BuildSettings} {available : Option (List String)}
  {ts : List Table}

/-- The base table of a model with the given columns of fields, and those at its end. -/
def tableWith (m : ContentModel) (settings : BuildSettings) (columns last : List Column) :
    Table where
  name := settings.tableName m.slug
  columns := Column.id :: columns ++ [Column.createdAt, Column.updatedAt] ++ last
  indexes := m.indexes
  unique := []
  mapName := none

theorem baseTable_eq_tableWith (m : ContentModel) (settings : BuildSettings)
    (columns : List (Option Column)) :
    m.baseTable settings columns = m.tableWith settings (columns.filterMap id)
      (if (m.movedFields settings).isEmpty then []
        else [Column.translations (settings.tableName m.slug)]) :=
  rfl

/-! ### Tables of a valid model -/

/-- The tables of a valid model are its base table with the columns of the fields that keep one and,
if fields move, their translations. -/
theorem Valid.tables_eq_ok_iff (hm : m.Valid) : m.tables settings available = .ok ts ↔
    let used := m.effectiveSettings settings
    let name := used.tableName m.slug
    name ≠ "" ∧ ∃ columns,
      (m.storedFields.filter (keepsColumn used available)).mapM (·.tableColumn name used) =
        .ok columns ∧
      ((m.movedFields used = [] ∧ ts = [m.tableWith used columns []]) ∨
        (m.movedFields used ≠ [] ∧ ∃ t,
          translationTable name (m.movedFields used) used
            (some (Naming.translationTableName name used.pattern)) = .ok t ∧
          ts = [m.tableWith used columns [Column.translations name], t])) := by
  -- the columns that there are, in place of those that there may be
  have hfields (used : BuildSettings) (name : String) : (·.filterMap id) <$> m.storedFields.mapM
        (baseColumn? name used available ((m.movedFields used).map (·.key))) =
      (m.storedFields.filter (keepsColumn used available)).mapM (·.tableColumn name used) :=
    filterMap_mapM fun f hf => hm.baseColumn?_eq hf name
  constructor
  · intro h
    obtain ⟨hne, columns, hcolumns, hts⟩ := tables_eq_ok h
    refine ⟨hne, columns.filterMap id, ?_,
      (alone_or_translated_last_iff (baseTable_eq_tableWith ..)).1 hts⟩
    rw [← hfields, hcolumns]
    rfl
  · rintro ⟨hne, columns, hcolumns, hts⟩
    rw [← hfields] at hcolumns
    obtain ⟨all, hall, rfl⟩ := map_eq_ok.1 hcolumns
    exact bind_eq_ok.2 ⟨all, hall, bind_eq_ok.2 ⟨m.baseTable _ all,
      Table.compiled_make_eq_ok.2 ⟨hne, rfl⟩, alone_or_translated_iff.2
        ((alone_or_translated_last_iff (baseTable_eq_tableWith ..)).2 hts)⟩⟩

theorem effectiveSettings_eq_of_translated
    (h : (m.effectiveSettings settings).translated = true) :
    m.effectiveSettings settings = settings := by
  rw [effectiveSettings] at h ⊢
  split
  · rename_i hout
    rw [if_pos hout] at h
    cases h
  · rfl

/-- Without translation the columns of all fields are on the base table, unless their components are
missing. -/
theorem Valid.tables_withoutTranslation (hm : m.Valid) (hne : settings.tableName m.slug ≠ "")
    {columns : List Column}
    (hcolumns : (m.storedFields.filter (!lacksComponent available ·)).mapM
      (·.tableColumn (settings.tableName m.slug) settings) = .ok columns) :
    m.tables settings.withoutTranslation available = .ok [m.tableWith settings columns []] := by
  have hused : m.effectiveSettings settings.withoutTranslation = settings.withoutTranslation := rfl
  have hkeeps : keepsColumn settings.withoutTranslation available =
      (!lacksComponent available ·) := by
    funext f
    simp [keepsColumn, BuildSettings.withoutTranslation]
  refine hm.tables_eq_ok_iff.2 ?_
  rw [hused]
  refine ⟨hne, columns, ?_, Or.inl ⟨rfl, rfl⟩⟩
  rw [hkeeps, ← hcolumns]
  rfl

/-! ### Splitting columns -/

/-- The columns of the fields of a model: without translation they are on one table, and with it on
two. -/
structure Split (m : ContentModel) (settings : BuildSettings) (available : Option (List String))
    (placed : List (Field × Column)) (ts : List Table) : Prop where
  /-- The fields are those that are stored and whose components are not missing, in their order. -/
  fields : placed.map Prod.fst = m.storedFields.filter (!lacksComponent available ·)
  /-- Each comes with its column. -/
  columns : ∀ p ∈ placed, p.1.tableColumn (settings.tableName m.slug) settings = .ok p.2
  /-- All translated fields that are stored are among them. -/
  translated : (placed.filter (·.1.isTranslatable)).map Prod.fst =
    m.storedFields.filter (·.isTranslatable)
  /-- Without translation all the columns are on the base table. -/
  whole : m.tables settings.withoutTranslation available =
    .ok [m.tableWith settings (placed.map Prod.snd) []]
  /-- With translation those of the translated fields are on a second table, if there are any. -/
  split :
    let name := settings.tableName m.slug
    let stay := (placed.filter (!·.1.isTranslatable)).map Prod.snd
    let move := (placed.filter (·.1.isTranslatable)).map Prod.snd
    (move = [] ∧ ts = [m.tableWith settings stay []]) ∨
      (move ≠ [] ∧ ts = [m.tableWith settings stay [Column.translations name],
        translationTableOf name move (.wayBack name .cascade)
          (some (Naming.translationTableName name settings.pattern))])

/-- With translation the fields whose components are not missing keep their columns or move them. -/
theorem Valid.filter_storedFields (hm : m.Valid) (available : Option (List String))
    (htranslated : settings.translated = true) :
    m.storedFields.filter (keepsColumn settings available) =
        (m.storedFields.filter (!lacksComponent available ·)).filter (!·.isTranslatable) ∧
      m.movedFields settings =
        (m.storedFields.filter (!lacksComponent available ·)).filter (·.isTranslatable) := by
  constructor
  · rw [List.filter_filter]
    refine List.filter_congr fun f _ => ?_
    rw [keepsColumn, htranslated, Bool.true_and, Bool.and_comm]
  · rw [movedFields, if_pos htranslated, splitTranslatable, List.partition_eq_filter_filter,
      List.filter_filter]
    refine List.filter_congr fun f hf => ?_
    cases htranslatable : f.isTranslatable with
    | false => rfl
    | true =>
      rw [lacksComponent_eq_false (hm.fields f (List.mem_filter.1 hf).1)
        (Field.type_ne_component htranslatable)]
      rfl

/-- A table for fields that move has the columns that they would have had on the base table. -/
theorem exists_columns_of_translationTable {name : String} {mapName : Option String} {t : Table}
    (h : translationTable name (m.movedFields settings) settings mapName = .ok t)
    (hne : m.movedFields settings ≠ []) :
    ∃ move, move ≠ [] ∧ (m.movedFields settings).mapM (·.tableColumn name settings) = .ok move ∧
      t = translationTableOf name move (.wayBack name .cascade) mapName := by
  have hcolumn : ∀ f ∈ m.movedFields settings, f.tableColumn name settings = f.column settings :=
    fun f hf => Field.tableColumn_of_isTranslatable (mem_movedFields.1 hf).2.2 _ settings
  rw [mapM_congr hcolumn]
  exact exists_columns_of_translationTable_of_ne h hne

/-- Translation moves the columns of translated fields to a table of their own and leaves all others
where they are. -/
theorem exists_split_of_tables {v : Value} (hm : ContentModel.check v = .accepted m)
    (hts : m.tables settings available = .ok ts)
    (htranslated : (m.effectiveSettings settings).translated = true) :
    ∃ placed, m.Split settings available placed ts := by
  have hvalid := valid_of_check hm
  obtain ⟨hne, stay, hstay, hcases⟩ := hvalid.tables_eq_ok_iff.1 hts
  rw [effectiveSettings_eq_of_translated htranslated] at hne hstay hcases htranslated
  obtain ⟨hkeep, hmove⟩ := hvalid.filter_storedFields available htranslated
  rw [hkeep] at hstay
  -- the columns that move, whether or not there are any
  obtain ⟨move, hcolumns, hsplit⟩ : ∃ move, (m.movedFields settings).mapM
        (·.tableColumn (settings.tableName m.slug) settings) = .ok move ∧
      ((move = [] ∧ ts = [m.tableWith settings stay []]) ∨
        (move ≠ [] ∧ ts = [
          m.tableWith settings stay [Column.translations (settings.tableName m.slug)],
          translationTableOf (settings.tableName m.slug) move
            (.wayBack (settings.tableName m.slug) .cascade)
            (some (Naming.translationTableName (settings.tableName m.slug) settings.pattern))])) := by
    rcases hcases with ⟨hnil, hts⟩ | ⟨hmoved, t, ht, hts⟩
    · exact ⟨[], by rw [hnil]; rfl, Or.inl ⟨rfl, hts⟩⟩
    · obtain ⟨move, hmove_ne, hcolumns, rfl⟩ := exists_columns_of_translationTable ht hmoved
      exact ⟨move, hcolumns, Or.inr ⟨hmove_ne, hts⟩⟩
  rw [hmove] at hcolumns
  -- a field has its column on one of the two tables
  obtain ⟨columns, hall⟩ := exists_mapM_eq_ok_of_filter hcolumns hstay
  have hpairs := mapM_eq_ok.1 hall
  obtain rfl := Except.ok.inj (hstay.symm.trans (mapM_filter_eq_ok hall (!·.isTranslatable)))
  obtain rfl := Except.ok.inj (hcolumns.symm.trans (mapM_filter_eq_ok hall (·.isTranslatable)))
  exact ⟨List.zip _ columns, {
    fields := List.map_fst_zip hpairs.length_eq.le
    columns := fun p hp => (List.forall₂_iff_zip.1 hpairs).2 hp
    translated := by
      calc ((List.zip _ columns).filter (·.1.isTranslatable)).map Prod.fst
          = ((List.zip _ columns).map Prod.fst).filter (·.isTranslatable) :=
            (@List.filter_map _ _ Prod.fst Field.isTranslatable _).symm
        _ = m.movedFields settings := by rw [List.map_fst_zip hpairs.length_eq.le, hmove]
        _ = m.storedFields.filter (·.isTranslatable) := by
            rw [movedFields, if_pos htranslated, splitTranslatable,
              List.partition_eq_filter_filter]
    whole := by
      rw [List.map_snd_zip hpairs.length_eq.ge]
      exact hvalid.tables_withoutTranslation hne hall
    split := hsplit }⟩

/-- Notes with a title, a rating that is not translated and links that nothing tells about, as they
are given. -/
def rawNote : Value := .object [
  ("slug", .text "note"), ("name", .text "Note"),
  ("fields", .list [
    .object [("key", .text "title"), ("label", .text "Title"), ("type", .text "text")],
    .object [("key", .text "links"), ("label", .text "Links"), ("type", .text "component"),
      ("config", .object [("slug", .text "link")])],
    .object [("key", .text "rating"), ("label", .text "Rating"), ("type", .text "number"),
      ("translatable", .bool false)]])]

/-- The title moves, the rating stays, and the links are on neither table. -/
theorem exists_split_rawNote : ∃ m ts placed, ContentModel.check rawNote = .accepted m ∧
    m.tables .standard (some []) = .ok ts ∧
    (m.effectiveSettings .standard).translated = true ∧
    m.Split .standard (some []) placed ts ∧
    ts.map (·.columnNames) = [["id", "rating", "created_at", "updated_at", "translations"],
      ["id", "note_id", "lang", "title", "note"]] := by
  obtain ⟨m, ts, hm, hts, htranslated, hnames⟩ : ∃ m ts,
      ContentModel.check rawNote = .accepted m ∧ m.tables .standard (some []) = .ok ts ∧
      (m.effectiveSettings .standard).translated = true ∧
      ts.map (·.columnNames) = [["id", "rating", "created_at", "updated_at", "translations"],
        ["id", "note_id", "lang", "title", "note"]] :=
    ⟨_, _, rfl, rfl, rfl, by decide +kernel⟩
  obtain ⟨placed, hplaced⟩ := exists_split_of_tables hm hts htranslated
  exact ⟨m, ts, placed, hm, hts, htranslated, hplaced, hnames⟩

end ContentModel

end ContentSchema
