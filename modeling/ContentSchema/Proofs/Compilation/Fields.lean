import ContentSchema.Naming.Table
import ContentSchema.Proofs.Outcomes

/-!
# Names and types of columns

What the column of a field is called and which table it refers to, read off the field alone
(`Field.fits_of_column`).  The type of the field tells which of four kinds its column is of
(`Field.proposedColumn_cases`).
-/

namespace ContentSchema

/-- Whether a relation leads to many rows. -/
def Cardinality.leadsToMany : Cardinality → Bool
  | oneToMany | manyToMany => true
  | oneToOne | manyToOne => false

theorem Column.isScalar_iff {c : Column} :
    c.isScalar = true ↔ c.type ∈ ScalarType.all.map (·.name) := by
  simp [isScalar]

theorem Column.isScalar_bare (name : String) (type : ScalarType) :
    (bare name type.name).isScalar = true := by
  cases type <;> rfl

namespace Field

/-- The table that the column of a field refers to; none if its type is a scalar. -/
def referredTable? (f : Field) (settings : BuildSettings) : Option String :=
  match f.type with
  | .media =>
    if f.holdsManyMedia ∧ mediaTable ∈ settings.externalNames then some mediaTable else none
  | .relation =>
    (f.relation?.filter (·.cardinality.leadsToMany)).map fun c => settings.targetName c.target
  | .component => f.component?.map fun c => settings.tableName c.slug
  | _ => none

/-- The name of the column of a field: media and relations that are held as the identifier of one
row have a suffix. -/
def columnName (f : Field) (settings : BuildSettings) : String :=
  if (f.type = .media ∨ f.type = .relation) ∧ f.referredTable? settings = none then f.key ++ "_id"
  else f.key

/-- A name with the suffix is none that ends in another way. -/
theorem append_id_ne {s t : String} (h : t.toList.reverse.take 3 ≠ ['d', 'i', '_']) :
    s ++ "_id" ≠ t := by
  rintro rfl
  apply h
  rw [String.toList_append, List.reverse_append]
  rfl

theorem append_id_ne_self (s : String) : s ++ "_id" ≠ s := by
  intro h
  have hlength := congrArg String.length h
  rw [String.length_append] at hlength
  change s.length + 3 = s.length at hlength
  omega

variable {f : Field} {settings : BuildSettings} {c : Column}

/-! ### Columns by the type of the field -/

/-- The field refers to rows of tables, and is not stored itself. -/
def Refers (f : Field) : Prop :=
  f.type = .media ∨ f.type = .relation ∨ f.type = .component

theorem not_refers_iff :
    ¬ f.Refers ↔ f.type ≠ .media ∧ f.type ≠ .relation ∧ f.type ≠ .component := by
  rw [Refers, not_or, not_or]

/-- What holds of the column of a scalar, a medium, a relation and a component holds of the column
of each field. -/
theorem proposedColumn_cases {motive : Column → Prop}
    (h : f.proposedColumn f.type settings = .ok c)
    (scalar : ¬ f.Refers → ∀ type default, motive (f.scalarColumn type default))
    (media : f.type = .media → motive (f.mediaColumn settings))
    (relation : f.type = .relation → ∀ r, f.relation? = some r →
      motive (f.relationColumn r settings))
    (component : f.type = .component → ∀ e, f.component? = some e →
      motive (f.componentColumn e settings)) : motive c := by
  cases htype : f.type with
  | text | rich | select | json | number | boolean | date =>
    rw [htype] at h
    cases h
    exact scalar (by simp [not_refers_iff, htype]) _ _
  | media =>
    rw [htype] at h
    cases h
    exact media htype
  | relation =>
    rw [htype, proposedColumn] at h
    split at h
    · rename_i r hr
      cases h
      exact relation htype r hr
    · cases h
  | component =>
    rw [htype, proposedColumn] at h
    split at h
    · rename_i e he
      cases h
      exact component htype e he
    · cases h

/-! ### Names and types -/

/-- The column is called by the key of the field, with or without the suffix. -/
theorem columnName_eq_or (f : Field) (settings : BuildSettings) :
    f.columnName settings = f.key ∨ f.columnName settings = f.key ++ "_id" := by
  rw [columnName]
  split
  · exact Or.inr rfl
  · exact Or.inl rfl

/-- The column has the name of the field's column and refers to the table of the field. -/
structure Fits (f : Field) (settings : BuildSettings) (c : Column) : Prop where
  /-- The name is that of the field's column. -/
  name : c.name = f.columnName settings
  /-- The column of a field that refers to no table is a scalar. -/
  scalar : f.referredTable? settings = none → c.isScalar = true
  /-- The column of a field that refers to a table has its name as type. -/
  type : ∀ table ∈ f.referredTable? settings, c.type = table

theorem fits_of_scalar (htype : f.type ≠ .media ∧ f.type ≠ .relation)
    (hnone : f.referredTable? settings = none) (type : ScalarType)
    (default : Option ColumnDefault) :
    f.Fits settings (f.scalarColumn type default) where
  name := by simp [columnName, htype, scalarColumn, Column.bare]
  scalar := fun _ => Column.isScalar_bare f.key type
  type := by simp [hnone]

theorem fits_idColumn (htype : f.type = .media ∨ f.type = .relation)
    (hnone : f.referredTable? settings = none) (attributes : List String) :
    f.Fits settings (f.idColumn attributes) where
  name := by simp [columnName, htype, hnone, idColumn, Column.bare]
  scalar := fun _ => Column.isScalar_bare (f.key ++ "_id") .string
  type := by simp [hnone]

theorem fits_listColumn {table : String} (hsome : f.referredTable? settings = some table) :
    f.Fits settings (f.listColumn table) where
  name := by simp [columnName, hsome, listColumn, Column.bare]
  scalar := by simp [hsome]
  type := by simp [hsome, listColumn, Column.bare]

theorem fits_mediaColumn (htype : f.type = .media) : f.Fits settings (f.mediaColumn settings) := by
  rw [mediaColumn]
  split
  · rename_i hmany
    exact fits_listColumn (by rw [referredTable?, htype]; exact if_pos hmany)
  · rename_i hone
    exact fits_idColumn (Or.inl htype) (by rw [referredTable?, htype]; exact if_neg hone) []

theorem fits_relationColumn (htype : f.type = .relation) {r : RelationConfig}
    (hr : f.relation? = some r) : f.Fits settings (f.relationColumn r settings) := by
  have hreferred : f.referredTable? settings =
      if r.cardinality.leadsToMany then some (settings.targetName r.target) else none := by
    rw [referredTable?, htype]
    cases hmany : r.cardinality.leadsToMany <;> simp [hr, hmany]
  rw [relationColumn]
  cases hcardinality : r.cardinality with
  | oneToMany => exact fits_listColumn (by rw [hreferred, hcardinality]; rfl)
  | manyToMany => exact fits_listColumn (by rw [hreferred, hcardinality]; rfl)
  | oneToOne => exact fits_idColumn (Or.inr htype) (by rw [hreferred, hcardinality]; rfl) _
  | manyToOne => exact fits_idColumn (Or.inr htype) (by rw [hreferred, hcardinality]; rfl) _

theorem fits_componentColumn (htype : f.type = .component) {e : ComponentConfig}
    (he : f.component? = some e) : f.Fits settings (f.componentColumn e settings) := by
  have hreferred : f.referredTable? settings = some (settings.tableName e.slug) := by
    rw [referredTable?, htype, he]
    rfl
  exact {
    name := by simp [columnName, htype, componentColumn, Column.bare]
    scalar := by simp [hreferred]
    type := by simp [hreferred, componentColumn, Column.bare] }

theorem fits_proposedColumn (h : f.proposedColumn f.type settings = .ok c) : f.Fits settings c := by
  refine proposedColumn_cases h (fun hscalar type default => ?_) fits_mediaColumn
    (fun htype _ hr => fits_relationColumn htype hr) fun htype _ he => fits_componentColumn htype he
  obtain ⟨hmedia, hrelation, hcomponent⟩ := not_refers_iff.1 hscalar
  refine fits_of_scalar ⟨hmedia, hrelation⟩ ?_ type default
  rw [referredTable?.eq_def]
  split <;> first | rfl | contradiction

/-- The column of a field has the name and the type that the field alone tells. -/
theorem fits_of_column (h : f.column settings = .ok c) : f.Fits settings c := by
  obtain ⟨p, hp, hmake⟩ := bind_eq_ok.1 h
  obtain ⟨-, -, rfl⟩ := Column.compiled_make_eq_ok.1 hmake
  have hfits := fits_proposedColumn hp
  exact ⟨hfits.name, hfits.scalar, hfits.type⟩

/-- The reference to the components of a field has its key as name and leads to their table. -/
theorem componentReference_eq_ok {owner : String}
    (h : f.componentReference owner settings = .ok c) :
    (∃ e, f.component? = some e) ∧ c.name = f.key ∧
      c.type = Naming.componentTableName owner f.key settings.convention := by
  rw [componentReference.eq_def] at h
  split at h
  · rename_i e he
    obtain ⟨-, -, rfl⟩ := Column.compiled_make_eq_ok.1 h
    exact ⟨⟨e, he⟩, rfl, rfl⟩
  · cases h

/-- The column that a stored field has on the table `owner`, unless it moves: a component is held as
a reference to the table of its instances. -/
def tableColumn (f : Field) (owner : String) (settings : BuildSettings) : Compiled Column :=
  if f.type = .component then f.componentReference owner settings else f.column settings

theorem name_of_tableColumn {owner : String} (h : f.tableColumn owner settings = .ok c) :
    c.name = f.columnName settings := by
  rw [tableColumn] at h
  split at h
  · rename_i htype
    simp [(componentReference_eq_ok h).2.1, columnName, htype]
  · exact (fits_of_column h).name

end Field

namespace Column

/-- The column that leads back to a table has its name as type. -/
theorem type_of_backRelation {table key : String} {action : ReferentialAction} {c : Column}
    (h : backRelation table key action = .ok c) : c.type = table := by
  obtain ⟨-, -, rfl⟩ := compiled_make_eq_ok.1 h
  rfl

/-- The relation column that leads back to a table through the column with its foreign key. -/
def wayBack (table : String) (onDelete : ReferentialAction) : Column :=
  { bare (Naming.backRelationName table) table with
    relation := some ⟨none, [Naming.foreignKeyName table], ["id"], some onDelete, none⟩ }

theorem backRelation_eq_ok {table : String} {onDelete : ReferentialAction} {c : Column}
    (h : backRelation table (Naming.foreignKeyName table) onDelete = .ok c) :
    c = wayBack table onDelete :=
  (compiled_make_eq_ok.1 h).2.2

end Column

end ContentSchema
