import ContentSchema.Compilation.Whole
import ContentSchema.Proofs.Definition.Valid
import ContentSchema.Proofs.Naming.Words
import ContentSchema.Proofs.Schema.Regular

/-!
# Compiled columns are regular

Under `PascalCase` and `camelCase`, with a word in front of the names of tables, every column that a
valid field takes is regular (`Field.Writable.regular_column`), and so are the columns that tables
have of their own.
-/

namespace ContentSchema

open Text

/-- Names are built of words: they are cut at hyphens, and what they begin with is a word. -/
structure BuildSettings.Plain (settings : BuildSettings) : Prop where
  /-- Names are in `PascalCase` or `camelCase`. -/
  convention : settings.convention ≠ .snakeCase
  /-- What stands in front of every name is a word. -/
  lead : ∀ lead ∈ settings.lead, Wordy lead.toList
  /-- The names of external tables are words. -/
  external : ∀ name ∈ settings.externalNames, Wordy name.toList

namespace Field

/-- The field is valid, its relation leads to a slug or an external table, and the texts of its
rules stand on one line each. -/
structure Writable (f : Field) (settings : BuildSettings) : Prop where
  /-- The field is valid. -/
  valid : f.Valid
  /-- A relation leads to a slug or an external table. -/
  target : ∀ c ∈ f.relation?, Reader.isSlug c.target = true ∨ c.target ∈ settings.externalNames
  /-- The texts of the rules stand on one line each. -/
  rules : ∀ r ∈ f.rules, ∀ s ∈ r.texts, Unbroken s.toList

variable {f : Field} {settings : BuildSettings} {c : Column}

/-! ### Columns of fields -/

theorem Valid.of_mem_key (h : f.Valid) : ∀ d ∈ f.key.toList, isWordChar d = true ∨ d = '-' := by
  intro d hd
  rcases Naming.handle_of_isSlug h.slug d hd with halnum | rfl | rfl
  · exact Or.inl (isWordChar_of_isAlphanum halnum)
  · exact Or.inl isWordChar_underscore
  · exact Or.inr rfl

theorem wordy_scalar (type : ScalarType) : Wordy type.name.toList := by
  cases type <;> decide

theorem Writable.lettered_scalarColumn (h : f.Writable settings) (type : ScalarType)
    {default : Option ColumnDefault} (hdefault : ∀ s, default ≠ some (.text s)) :
    (f.scalarColumn type default).Lettered :=
  { Column.lettered_bare h.valid.of_mem_key (wordy_scalar type) with
    default := hdefault
    rules := h.rules }

theorem Writable.lettered_numberColumn (h : f.Writable settings) : f.numberColumn.Lettered := by
  rw [numberColumn]
  refine h.lettered_scalarColumn _ fun s hs => ?_
  obtain ⟨n, -, hn⟩ := Option.map_eq_some_iff.1 hs
  cases n <;> cases hn

theorem Writable.lettered_booleanColumn (h : f.Writable settings) : f.booleanColumn.Lettered := by
  rw [booleanColumn]
  refine h.lettered_scalarColumn _ fun s hs => ?_
  obtain ⟨b, -, hb⟩ := Option.map_eq_some_iff.1 hs
  cases hb

theorem Writable.lettered_idColumn (h : f.Writable settings) {attributes : List String}
    (hattributes : ∀ a ∈ attributes, a ∈ Column.ownAttributes) :
    (f.idColumn attributes).Lettered := by
  have hname : ∀ d ∈ (f.key ++ "_id").toList, isWordChar d = true ∨ d = '-' := by
    intro d hd
    rw [String.toList_append] at hd
    rcases List.mem_append.1 hd with hd | hd
    · exact h.valid.of_mem_key d hd
    · have hall : ∀ d ∈ "_id".toList, isWordChar d = true := by decide
      exact Or.inl (hall d hd)
  exact { Column.lettered_bare hname (wordy_scalar .string) with attributes := hattributes }

theorem Writable.lettered_listColumn (h : f.Writable settings) {table : String}
    (htable : Wordy table.toList) : (f.listColumn table).Lettered :=
  { Column.lettered_bare h.valid.of_mem_key htable with }

theorem Writable.lettered_mediaColumn (h : f.Writable settings) :
    (f.mediaColumn settings).Lettered := by
  rw [mediaColumn]
  split
  · exact h.lettered_listColumn (by decide)
  · exact h.lettered_idColumn (by simp)

theorem Writable.lettered_relationColumn (hs : settings.Plain) (h : f.Writable settings)
    {r : RelationConfig} (hr : f.relation? = some r) :
    (f.relationColumn r settings).Lettered := by
  have htarget := BuildSettings.wordy_targetName hs.lead hs.external (h.target r hr)
  rw [relationColumn]
  cases r.cardinality with
  | oneToMany => exact h.lettered_listColumn htarget
  | manyToMany => exact h.lettered_listColumn htarget
  | oneToOne => exact h.lettered_idColumn (by decide)
  | manyToOne => exact h.lettered_idColumn (by simp)

theorem Writable.lettered_componentColumn (hs : settings.Plain) (h : f.Writable settings)
    {e : ComponentConfig} (he : f.component? = some e) :
    (f.componentColumn e settings).Lettered := by
  have htable := BuildSettings.wordy_tableName hs.lead (h.valid.isSlug_component he)
  exact { Column.lettered_bare h.valid.of_mem_key htable with }

theorem Writable.lettered_proposedColumn (hs : settings.Plain) (h : f.Writable settings)
    {type : FieldType} (hc : f.proposedColumn type settings = .ok c) : c.Lettered := by
  have hscalar : ∀ type, (f.scalarColumn type none).Lettered := fun type =>
    h.lettered_scalarColumn type fun s => by simp
  cases type with
  | text | rich | select | json | date =>
    cases hc
    exact hscalar _
  | number =>
    cases hc
    exact h.lettered_numberColumn
  | boolean =>
    cases hc
    exact h.lettered_booleanColumn
  | media =>
    cases hc
    exact h.lettered_mediaColumn
  | relation =>
    rw [proposedColumn] at hc
    split at hc
    · rename_i r hr
      cases hc
      exact h.lettered_relationColumn hs hr
    · cases hc
  | component =>
    rw [proposedColumn] at hc
    split at hc
    · rename_i e he
      cases hc
      exact h.lettered_componentColumn hs he
    · cases hc

/-- The column of a field is regular. -/
theorem Writable.regular_column (hs : settings.Plain) (h : f.Writable settings)
    (hc : f.column settings = .ok c) : c.Regular := by
  obtain ⟨p, hp, hmake⟩ := bind_eq_ok.1 hc
  exact (h.lettered_proposedColumn hs hp).regular_of_make hmake

theorem Writable.regular_componentReference (hs : settings.Plain) (h : f.Writable settings)
    {owner : String} (howner : Wordy owner.toList)
    (hc : f.componentReference owner settings = .ok c) : c.Regular := by
  rw [componentReference.eq_def] at hc
  split at hc
  · rename_i e _
    have htable := (Naming.wordy_componentTableName_iff (Naming.handle_of_isSlug h.valid.slug)).2
      ⟨howner, fun hsnake => absurd hsnake hs.convention⟩
    have hlettered : Column.Lettered
        { Column.bare f.key (Naming.componentTableName owner f.key settings.convention) with
          nullable := true, isList := e.repeatable } :=
      { Column.lettered_bare h.valid.of_mem_key htable with }
    exact hlettered.regular_of_make hc
  · cases hc

end Field

/-! ### Columns that tables have of their own -/

namespace Column

variable {c : Column} {name table : String}

theorem regular_bare {type : String} (hname : Wordy name.toList) (hne : name ≠ "")
    (htype : Wordy type.toList) (htype_ne : type ≠ "") : (bare name type).Regular :=
  { lettered_bare (fun d hd => Or.inl (hname d hd)) htype with
    name_ne := hne
    type_ne := htype_ne
    marks := by simp [bare] }

theorem regular_id : id.Regular :=
  { regular_bare (by decide) (by decide) (by decide) (by decide) with attributes := by decide }

theorem regular_createdAt : createdAt.Regular :=
  { regular_bare (by decide) (by decide) (by decide) (by decide) with attributes := by decide }

theorem regular_updatedAt : updatedAt.Regular :=
  { regular_bare (by decide) (by decide) (by decide) (by decide) with attributes := by decide }

theorem regular_order : order.Regular :=
  { regular_bare (by decide) (by decide) (by decide) (by decide) with marks := by decide }

theorem regular_string (hname : Wordy name.toList) (hne : name ≠ "") : (string name).Regular :=
  regular_bare hname hne (by decide) (by decide)

theorem regular_of_mem_variantColumns (h : c ∈ variantColumns) : c.Regular := by
  simp only [variantColumns, List.mem_cons, List.not_mem_nil, or_false] at h
  rcases h with rfl | rfl
  · exact { regular_string (by decide) (by decide) with marks := by decide }
  · exact { regular_bare (by decide) (by decide) (by decide) (by decide) with
      marks := by decide
      default := by simp }

theorem append_ne_empty {s t : String} (h : t ≠ "") : s ++ t ≠ "" := by
  simp [h]

theorem regular_translations (h : Wordy name.toList) : (translations name).Regular :=
  { @regular_bare "translations" _ (by decide) (by decide)
      (Naming.wordy_translationModelName_iff.2 h) (append_ne_empty (by decide)) with
    marks := by simp [translations, bare] }

theorem foreignKeyName_ne (table : String) : Naming.foreignKeyName table ≠ "" :=
  append_ne_empty (by decide)

theorem regular_backRelation (h : Wordy table.toList) {action : ReferentialAction}
    (hc : backRelation table (Naming.foreignKeyName table) action = .ok c) : c.Regular := by
  have hkey : AllWords [Naming.foreignKeyName table] := by
    intro n hn
    rw [List.mem_singleton.1 hn]
    exact ⟨by simpa using foreignKeyName_ne table, Naming.wordy_foreignKeyName h⟩
  have hid : AllWords ["id"] := by decide
  have hlettered : Lettered
      { bare (Naming.backRelationName table) table with
        relation := some ⟨none, [Naming.foreignKeyName table], ["id"], some action, none⟩ } :=
    { lettered_bare (fun d hd => Or.inl (Naming.wordy_snakeCase h d hd)) h with
      relation := by
        rintro r ⟨⟩
        exact ⟨by simp, hkey, hid⟩ }
  exact hlettered.regular_of_make hc

end Column

end ContentSchema
