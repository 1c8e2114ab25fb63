import ContentSchema.Proofs.Compilation.Tables

/-!
# Tables of embedded components

A component that is embedded has a table of instances (`Embedding.tableWith`), with a key to the
owner that is unique or, if there may be several instances, indexed.  As with models, translation
makes no columns of fields and loses none: it moves those of translated fields to a second table and
leaves all others where they are (`Component.exists_placed_of_tables`).  Which fields move is told
by the fields themselves, so that their keys need not be different.
-/

namespace ContentSchema

/-! ### The table of instances -/

namespace Embedding

/-- The column with the key of the owner, which no two instances share unless there may be
several. -/
def ownerKey (e : Embedding) : Column :=
  { Column.string (Naming.foreignKeyName e.owner) with
    attributes := if e.repeatable then [] else ["@unique"] }

/-- Whether variants of the component are tested against each other. -/
def hasVariants (e : Embedding) : Bool := e.context.any (·.hasVariants)

/-- The table of instances with the given columns of fields, and those at its end. -/
def tableWith (e : Embedding) (settings : BuildSettings) (columns last : List Column) : Table where
  name := e.tableName settings
  columns := [Column.id, e.ownerKey] ++ (if e.repeatable then [Column.order] else []) ++
    (if e.hasVariants then variantColumns else []) ++ columns ++
    [Column.createdAt, Column.updatedAt, .wayBack e.owner .cascade] ++ last
  indexes := if e.repeatable then [[Naming.foreignKeyName e.owner]] else []
  unique := []
  mapName := none

theorem columnNames_tableWith (e : Embedding) (settings : BuildSettings)
    (columns last : List Column) : (e.tableWith settings columns last).columnNames =
      ["id", Naming.foreignKeyName e.owner] ++ (if e.repeatable then ["order"] else []) ++
        (if e.hasVariants then variantKeys else []) ++ columns.map (·.name) ++
        ["created_at", "updated_at", Naming.backRelationName e.owner] ++ last.map (·.name) := by
  have horder : (if e.repeatable then [Column.order] else []).map (·.name) =
      if e.repeatable then ["order"] else [] := by
    cases e.repeatable <;> rfl
  have hvariants : (if e.hasVariants then variantColumns else []).map (·.name) =
      if e.hasVariants then variantKeys else [] := by
    cases e.hasVariants <;> rfl
  rw [Table.columnNames, tableWith, List.map_append, List.map_append, List.map_append,
    List.map_append, List.map_append, horder, hvariants]
  rfl

/-- The instances lead to the owner by their second column, which is unique or has an index. -/
structure Keyed (e : Embedding) (instances : Table) : Prop where
  /-- The second column is the key of the owner. -/
  second : instances.columns[1]? = some e.ownerKey
  /-- It is unique unless there may be several instances. -/
  unique : "@unique" ∈ e.ownerKey.attributes ↔ e.repeatable = false
  /-- Otherwise there is an index on it. -/
  indexed : [e.ownerKey.name] ∈ instances.indexes ↔ e.repeatable = true

theorem keyed_tableWith (e : Embedding) (settings : BuildSettings) (columns last : List Column) :
    e.Keyed (e.tableWith settings columns last) where
  second := rfl
  unique := by
    rw [ownerKey]
    cases e.repeatable <;> simp
  indexed := by
    rw [tableWith, ownerKey]
    cases e.repeatable <;> simp [Column.string, Column.bare]

end Embedding

namespace Component

variable {c : Component} {e : Embedding} {settings : BuildSettings} {ts : List Table}

theorem movedFields_eq (c : Component) (settings : BuildSettings) : c.movedFields settings =
    c.storedFields.filter fun f => settings.translated && f.isTranslatable := by
  rw [movedFields, placeFields]
  cases settings.translated with
  | false => simp
  | true => simp [splitTranslatable, List.partition_eq_filter_filter]

theorem keptFields_eq (c : Component) (settings : BuildSettings) : c.keptFields settings =
    c.storedFields.filter fun f => !(settings.translated && f.isTranslatable) := by
  rw [keptFields, placeFields]
  cases settings.translated with
  | false => simp
  | true => simp [splitTranslatable, List.partition_eq_filter_filter, Function.comp_def]

theorem movedFields_ne_nil_iff : c.movedFields settings ≠ [] ↔ settings.translated = true ∧
    ∃ f ∈ c.fields, f.derived = false ∧ f.isTranslatable = true := by
  rw [movedFields_eq, storedFields, List.filter_filter, Ne, List.filter_eq_nil_iff]
  cases settings.translated <;> simp [and_comm]

theorem instanceTable_eq_tableWith (c : Component) (e : Embedding) (settings : BuildSettings)
    (columns : List Column) :
    c.instanceTable e settings columns (.wayBack e.owner .cascade) = e.tableWith settings columns
      (if (c.movedFields settings).isEmpty then []
        else [Column.translations (e.tableName settings)]) :=
  rfl

/-- The tables of an embedded component are its instances with the columns of the fields that stay
and, if fields move, their translations. -/
theorem tables_eq_ok_iff_tableWith : c.tables e settings = .ok ts ↔
    let name := e.tableName settings
    name ≠ "" ∧
    Column.backRelation e.owner (Naming.foreignKeyName e.owner) .cascade =
      .ok (.wayBack e.owner .cascade) ∧
    ∃ columns, (c.keptFields settings).mapM (·.column settings) = .ok columns ∧
      ((c.movedFields settings = [] ∧ ts = [e.tableWith settings columns []]) ∨
        (c.movedFields settings ≠ [] ∧ ∃ t,
          translationTable name (c.movedFields settings) settings
            (some (Naming.snakeCase (Naming.translationModelName name))) = .ok t ∧
          ts = [e.tableWith settings columns [Column.translations name], t])) := by
  constructor
  · intro h
    obtain ⟨hne, columns, toOwner, hcolumns, htoOwner, hts⟩ := tables_eq_ok h
    obtain rfl := Column.backRelation_eq_ok htoOwner
    exact ⟨hne, htoOwner, columns, hcolumns,
      (alone_or_translated_last_iff (instanceTable_eq_tableWith ..)).1 hts⟩
  · rintro ⟨hne, htoOwner, columns, hcolumns, hts⟩
    exact bind_eq_ok.2 ⟨columns, hcolumns, bind_eq_ok.2 ⟨_, htoOwner, bind_eq_ok.2
      ⟨c.instanceTable e settings columns _, Table.compiled_make_eq_ok.2 ⟨hne, rfl⟩,
        alone_or_translated_iff.2
          ((alone_or_translated_last_iff (instanceTable_eq_tableWith ..)).2 hts)⟩⟩⟩

/-- Without translation the columns of all fields are on the table of instances. -/
theorem tables_withoutTranslation (hne : e.tableName settings ≠ "")
    (hback : Column.backRelation e.owner (Naming.foreignKeyName e.owner) .cascade =
      .ok (.wayBack e.owner .cascade))
    {columns : List Column} (hcolumns : c.storedFields.mapM (·.column settings) = .ok columns) :
    c.tables e settings.withoutTranslation = .ok [e.tableWith settings columns []] := by
  have hkept : c.keptFields settings.withoutTranslation = c.storedFields := by
    rw [keptFields_eq]
    exact List.filter_eq_self.2 fun f _ => rfl
  refine tables_eq_ok_iff_tableWith.2 ⟨hne, hback, columns, ?_, Or.inl ⟨rfl, rfl⟩⟩
  rw [hkept]
  exact hcolumns

/-- There are translations if a field that is not derived is translated, one for each instance and
language. -/
theorem exists_keyed_of_tables (h : c.tables e settings = .ok ts) :
    ∃ instances more, ts = instances :: more ∧ e.Keyed instances ∧
      more.length = (if settings.translated = true ∧
        ∃ f ∈ c.fields, f.derived = false ∧ f.isTranslatable = true then 1 else 0) ∧
      ∀ t ∈ more, t.unique = [[Naming.foreignKeyName instances.name, "lang"]] := by
  obtain ⟨-, -, columns, -, hcases⟩ := tables_eq_ok_iff_tableWith.1 h
  rcases hcases with ⟨hnil, rfl⟩ | ⟨hmoved, t, ht, rfl⟩
  · have hnone := mt movedFields_ne_nil_iff.2 (not_not.2 hnil)
    exact ⟨_, [], rfl, e.keyed_tableWith .., (if_neg hnone).symm, by simp⟩
  · have hsome := movedFields_ne_nil_iff.1 hmoved
    obtain ⟨_, _, -, -, rfl⟩ := translationTable_eq_ok ht
    refine ⟨_, [_], rfl, e.keyed_tableWith .., (if_pos hsome).symm, ?_⟩
    rw [List.forall_mem_singleton]
    rfl

/-! ### Splitting columns -/

/-- The columns of the fields of a component: without translation they are on one table, and with it
on two. -/
structure Split (c : Component) (e : Embedding) (settings : BuildSettings)
    (placed : List (Field × Column)) (ts : List Table) : Prop where
  /-- The fields are those that are stored, in their order. -/
  fields : placed.map Prod.fst = c.storedFields
  /-- Each comes with its column. -/
  columns : ∀ p ∈ placed, p.1.column settings = .ok p.2
  /-- Without translation all the columns are on the table of instances. -/
  whole : c.tables e settings.withoutTranslation =
    .ok [e.tableWith settings (placed.map Prod.snd) []]
  /-- With translation those of the translated fields are on a second table, if there are any. -/
  split :
    let name := e.tableName settings
    let moves := fun p : Field × Column => settings.translated && p.1.isTranslatable
    let stay := (placed.filter (!moves ·)).map Prod.snd
    let move := (placed.filter moves).map Prod.snd
    (move = [] ∧ ts = [e.tableWith settings stay []]) ∨
      (move ≠ [] ∧ ts = [e.tableWith settings stay [Column.translations name],
        translationTableOf name move (.wayBack name .cascade)
          (some (Naming.snakeCase (Naming.translationModelName name)))])

/-- The columns of all stored fields are on the tables of an embedded component, in their order.
The instances are keyed by their owner, and their translations, which are there if a field that is
not derived is translated, by instance and language. -/
theorem exists_placed_of_tables (h : c.tables e settings = .ok ts) :
    ∃ placed, c.Split e settings placed ts ∧ ∃ instances more, ts = instances :: more ∧
      e.Keyed instances ∧
      more.length = (if settings.translated = true ∧
        ∃ f ∈ c.fields, f.derived = false ∧ f.isTranslatable = true then 1 else 0) ∧
      ∀ t ∈ more, t.unique = [[Naming.foreignKeyName instances.name, "lang"]] := by
  obtain ⟨hne, hback, stay, hstay, hcases⟩ := tables_eq_ok_iff_tableWith.1 h
  -- the columns that move, whether or not there are any
  obtain ⟨move, hmove, hsplit⟩ : ∃ move,
      (c.movedFields settings).mapM (·.column settings) = .ok move ∧
      ((move = [] ∧ ts = [e.tableWith settings stay []]) ∨
        (move ≠ [] ∧ ts = [
          e.tableWith settings stay [Column.translations (e.tableName settings)],
          translationTableOf (e.tableName settings) move (.wayBack (e.tableName settings) .cascade)
            (some (Naming.snakeCase (Naming.translationModelName (e.tableName settings))))])) := by
    rcases hcases with ⟨hnil, hts⟩ | ⟨hmoved, t, ht, hts⟩
    · exact ⟨[], by rw [hnil]; rfl, Or.inl ⟨rfl, hts⟩⟩
    · obtain ⟨move, hmove_ne, hcolumns, rfl⟩ := exists_columns_of_translationTable_of_ne ht hmoved
      exact ⟨move, hcolumns, Or.inr ⟨hmove_ne, hts⟩⟩
  rw [movedFields_eq] at hmove
  rw [keptFields_eq] at hstay
  -- a field has its column on one of the two tables
  obtain ⟨columns, hall⟩ := exists_mapM_eq_ok_of_filter hmove hstay
  have hpairs := mapM_eq_ok.1 hall
  obtain rfl := Except.ok.inj (hstay.symm.trans (mapM_filter_eq_ok hall _))
  obtain rfl := Except.ok.inj (hmove.symm.trans (mapM_filter_eq_ok hall _))
  exact ⟨List.zip _ columns, {
    fields := List.map_fst_zip hpairs.length_eq.le
    columns := fun p hp => (List.forall₂_iff_zip.1 hpairs).2 hp
    whole := by
      rw [List.map_snd_zip hpairs.length_eq.ge]
      exact tables_withoutTranslation hne hback hall
    split := hsplit }, exists_keyed_of_tables h⟩

/-- A gallery with a title, a size that is not translated, and a summary that takes no column, as it
is given. -/
def rawGallery : Value := .object [
  ("slug", .text "gallery"), ("name", .text "Gallery"),
  ("fields", .list [
    .object [("key", .text "title"), ("label", .text "Title"), ("type", .text "text")],
    .object [("key", .text "size"), ("label", .text "Size"), ("type", .text "number"),
      ("translatable", .bool false)],
    .object [("key", .text "summary"), ("label", .text "Summary"), ("type", .text "text"),
      ("derived", .bool true)]])]

/-- A post may have several albums, and variants of them are tested. -/
def testedAlbums : Embedding where
  owner := "Post"
  key := "albums"
  repeatable := true
  context := some ⟨none, some ⟨true, 2, []⟩, []⟩

/-- The title moves, the size stays, and there is no summary. -/
theorem exists_placed_rawGallery : ∃ c ts placed, Component.check rawGallery = .accepted c ∧
    c.tables testedAlbums .standard = .ok ts ∧ c.Split testedAlbums .standard placed ts ∧
    ts.map (·.columnNames) = [["id", "post_id", "order", "variant_id", "enabled", "size",
        "created_at", "updated_at", "post", "translations"],
      ["id", "post_album_id", "lang", "title", "post_album"]] := by
  obtain ⟨c, ts, hc, hts, hnames⟩ : ∃ c ts, Component.check rawGallery = .accepted c ∧
      c.tables testedAlbums .standard = .ok ts ∧
      ts.map (·.columnNames) = [["id", "post_id", "order", "variant_id", "enabled", "size",
          "created_at", "updated_at", "post", "translations"],
        ["id", "post_album_id", "lang", "title", "post_album"]] :=
    ⟨_, _, rfl, rfl, by decide +kernel⟩
  obtain ⟨placed, hplaced, -⟩ := exists_placed_of_tables hts
  exact ⟨c, ts, placed, hc, hts, hplaced, hnames⟩

end Component

end ContentSchema
