import ContentSchema.Proofs.Compilation.Fields

/-!
# Shapes of columns

A field leads to one row (`Field.LeadsToOne`), to many (`Field.LeadsToMany`), or is stored itself.
This and whether content must be given tell the shape of its one column, whatever else its
configuration says (`Field.shaped_of_column`).
-/

namespace ContentSchema

namespace Field

/-! ### Where a field leads -/

/-- The field leads to one row, whose identifier is stored: by a relation to one row, or as a medium
unless several media are in an external table. -/
def LeadsToOne (f : Field) (settings : BuildSettings) : Prop :=
  match f.type with
  | .relation => ∃ r ∈ f.relation?, r.cardinality = .oneToOne ∨ r.cardinality = .manyToOne
  | .media => ¬ (f.holdsManyMedia = true ∧ mediaTable ∈ settings.externalNames)
  | _ => False

/-- The field leads to many rows: of the target of a relation, of the external table of media, or of
the instances of a component. -/
def LeadsToMany (f : Field) (settings : BuildSettings) : Prop :=
  match f.type with
  | .relation => ∃ r ∈ f.relation?, r.cardinality = .oneToMany ∨ r.cardinality = .manyToMany
  | .media => f.holdsManyMedia = true ∧ mediaTable ∈ settings.externalNames
  | .component => ∃ c ∈ f.component?, c.repeatable = true
  | _ => False

/-- The field is a relation between single rows. -/
def IsOneToOne (f : Field) : Prop :=
  f.type = .relation ∧ ∃ r ∈ f.relation?, r.cardinality = .oneToOne

/-- The shape of the column of a field, before it is accepted. -/
structure Drafted (f : Field) (settings : BuildSettings) (c : Column) : Prop where
  /-- The name has a suffix if the field leads to one row. -/
  suffixed : c.name = f.key ++ "_id" ↔ f.LeadsToOne settings
  /-- Otherwise it is the key. -/
  plain : c.name = f.key ↔ ¬ f.LeadsToOne settings
  /-- The column is a list if the field leads to many rows. -/
  isList : c.isList = true ↔ f.LeadsToMany settings
  /-- Otherwise there may be no value unless content must be given. -/
  nullable : c.isList = false → (c.nullable = true ↔ f.required = false)
  /-- No value occurs twice if the field is a relation between single rows. -/
  unique : "@unique" ∈ c.attributes ↔ f.IsOneToOne
  /-- A column that refers to other rows has no rules. -/
  referring : f.Refers → c.rules = none
  /-- All others have the rules of the field. -/
  stored : ¬ f.Refers → c.rules = f.rules

/-- The shape of the column of a field. -/
structure Shaped (f : Field) (settings : BuildSettings) (c : Column) : Prop
    extends Drafted f settings c where
  /-- A list is there for each row, even if it is empty. -/
  marks : ¬ (c.isList = true ∧ c.nullable = true)

variable {f : Field} {settings : BuildSettings} {c : Column}

/-! ### Shapes by the type of the field -/

theorem refers_of_leadsToOne (h : f.LeadsToOne settings) : f.Refers := by
  rw [LeadsToOne.eq_def] at h
  split at h
  · rename_i htype
    exact Or.inr (Or.inl htype)
  · rename_i htype
    exact Or.inl htype
  · cases h

theorem refers_of_leadsToMany (h : f.LeadsToMany settings) : f.Refers := by
  rw [LeadsToMany.eq_def] at h
  split at h
  · rename_i htype
    exact Or.inr (Or.inl htype)
  · rename_i htype
    exact Or.inl htype
  · rename_i htype
    exact Or.inr (Or.inr htype)
  · cases h

theorem drafted_scalarColumn (hstored : ¬ f.Refers) (type : ScalarType)
    (default : Option ColumnDefault) : f.Drafted settings (f.scalarColumn type default) where
  suffixed := iff_of_false (append_id_ne_self f.key).symm (mt refers_of_leadsToOne hstored)
  plain := iff_of_true rfl (mt refers_of_leadsToOne hstored)
  isList := iff_of_false Bool.false_ne_true (mt refers_of_leadsToMany hstored)
  nullable := by simp [scalarColumn]
  unique := iff_of_false List.not_mem_nil fun h => hstored (Or.inr (Or.inl h.1))
  referring := fun h => absurd h hstored
  stored := fun _ => rfl

theorem drafted_idColumn (hone : f.LeadsToOne settings) (hmany : ¬ f.LeadsToMany settings)
    (hrefers : f.Refers) {attributes : List String}
    (hunique : "@unique" ∈ attributes ↔ f.IsOneToOne) :
    f.Drafted settings (f.idColumn attributes) where
  suffixed := iff_of_true rfl hone
  plain := iff_of_false (append_id_ne_self f.key) (not_not.2 hone)
  isList := iff_of_false Bool.false_ne_true hmany
  nullable := by simp [idColumn]
  unique := hunique
  referring := fun _ => rfl
  stored := fun h => absurd hrefers h

theorem drafted_listColumn (hone : ¬ f.LeadsToOne settings) (hmany : f.LeadsToMany settings)
    (hrefers : f.Refers) (hunique : ¬ f.IsOneToOne) (table : String) :
    f.Drafted settings (f.listColumn table) where
  suffixed := iff_of_false (append_id_ne_self f.key).symm hone
  plain := iff_of_true rfl hone
  isList := iff_of_true rfl hmany
  nullable := fun h => nomatch (show true = false from h)
  unique := iff_of_false List.not_mem_nil hunique
  referring := fun _ => rfl
  stored := fun h => absurd hrefers h

theorem drafted_mediaColumn (htype : f.type = .media) :
    f.Drafted settings (f.mediaColumn settings) := by
  have hunique : ¬ f.IsOneToOne := by simp [IsOneToOne, htype]
  rw [mediaColumn]
  split
  · rename_i hmany
    exact drafted_listColumn (by simp [LeadsToOne, htype, hmany])
      (by simp [LeadsToMany, htype, hmany]) (Or.inl htype) hunique _
  · rename_i hone
    exact drafted_idColumn (by simpa [LeadsToOne, htype] using hone)
      (by simpa [LeadsToMany, htype] using hone) (Or.inl htype)
      (iff_of_false List.not_mem_nil hunique)

theorem drafted_relationColumn (htype : f.type = .relation) {r : RelationConfig}
    (hr : f.relation? = some r) : f.Drafted settings (f.relationColumn r settings) := by
  have hrefers : f.Refers := Or.inr (Or.inl htype)
  rw [relationColumn]
  cases hcardinality : r.cardinality with
  | oneToMany | manyToMany =>
    exact drafted_listColumn (by simp [LeadsToOne, htype, hr, hcardinality])
      (by simp [LeadsToMany, htype, hr, hcardinality]) hrefers
      (by simp [IsOneToOne, hr, hcardinality]) _
  | oneToOne | manyToOne =>
    exact drafted_idColumn (by simp [LeadsToOne, htype, hr, hcardinality])
      (by simp [LeadsToMany, htype, hr, hcardinality]) hrefers
      (by simp [IsOneToOne, htype, hr, hcardinality])

theorem drafted_componentColumn (htype : f.type = .component) {e : ComponentConfig}
    (he : f.component? = some e) : f.Drafted settings (f.componentColumn e settings) where
  suffixed := iff_of_false (append_id_ne_self f.key).symm (by simp [LeadsToOne, htype])
  plain := iff_of_true rfl (by simp [LeadsToOne, htype])
  isList := by simp [componentColumn, LeadsToMany, htype, he]
  nullable := by simp [componentColumn]
  unique := iff_of_false List.not_mem_nil (by simp [IsOneToOne, htype])
  referring := fun _ => rfl
  stored := fun h => absurd (Or.inr (Or.inr htype)) h

theorem drafted_proposedColumn (h : f.proposedColumn f.type settings = .ok c) :
    f.Drafted settings c :=
  proposedColumn_cases h drafted_scalarColumn drafted_mediaColumn
    (fun htype _ hr => drafted_relationColumn htype hr)
    fun htype _ he => drafted_componentColumn htype he

/-- A column that is accepted loses no more than the mark for missing values, if it is a list. -/
theorem Drafted.shaped (h : f.Drafted settings c) :
    f.Shaped settings { c with nullable := c.nullable && !c.isList } :=
  { h with
    nullable := by
      intro hlist
      have hlist : c.isList = false := hlist
      rw [← h.nullable hlist, hlist, Bool.not_false, Bool.and_true]
    marks := by
      rintro ⟨hlist, hnullable⟩
      have hlist : c.isList = true := hlist
      simp [hlist] at hnullable }

/-- A field takes one column of the shape that its type and its configuration tell. -/
theorem shaped_of_column (h : f.column settings = .ok c) : f.Shaped settings c := by
  obtain ⟨p, hp, hmake⟩ := bind_eq_ok.1 h
  obtain ⟨-, -, rfl⟩ := Column.compiled_make_eq_ok.1 hmake
  exact (drafted_proposedColumn hp).shaped

/-- A field that leads to the one author of a post, as it is given. -/
def rawAuthor : Value := .object [
  ("key", .text "author"), ("label", .text "Author"), ("type", .text "relation"),
  ("config", .object [("relationType", .text "oneToOne"), ("targetModel", .text "author")]),
  ("required", .bool true), ("validation", .object [("errorMessage", .text "No author")])]

/-- The author is held as a unique identifier that must be given, without the field's rules. -/
theorem shaped_rawAuthor : ∃ f c, Field.read rawAuthor = .accepted f ∧
    f.column .standard = .ok c ∧ f.Shaped .standard c ∧ f.IsOneToOne ∧ c.name = "author_id" ∧
    c.typeSignature = "String" ∧ "@unique" ∈ c.attributes ∧ f.rules ≠ none ∧ c.rules = none := by
  obtain ⟨f, c, hf, hc, hone, hname, htype, hrules⟩ : ∃ f c, Field.read rawAuthor = .accepted f ∧
      f.column .standard = .ok c ∧ f.IsOneToOne ∧ c.name = "author_id" ∧
      c.typeSignature = "String" ∧ f.rules ≠ none :=
    ⟨_, _, rfl, rfl, ⟨rfl, _, rfl, rfl⟩, rfl, rfl, nofun⟩
  have hshaped := shaped_of_column hc
  exact ⟨f, c, hf, hc, hshaped, hone, hname, htype, hshaped.unique.2 hone, hrules,
    hshaped.referring (Or.inr (Or.inl hone.1))⟩

end Field

end ContentSchema
