import ContentSchema.Proofs.Compilation.Success
import ContentSchema.Proofs.Schema.NumberLiterals

/-!
# Defaults of compiled columns

The column of a number or boolean field shows the default that the field's configuration declares
and nothing else.  It is read as a value of the column's type exactly if it is plain
(`Field.Valid.reads_declaredDefault_iff`): a field for whole numbers may declare any other number,
and the numbers that are written with an exponent, or that are none, are read as texts.
-/

namespace ContentSchema

namespace Field

variable {f : Field} {settings : BuildSettings} {d : ColumnDefault}

/-- The default that the configuration of a field declares. -/
def declaredDefault (f : Field) : Option ColumnDefault :=
  match f.config with
  | some (.number c) => c.default.map ColumnDefault.ofNum
  | some (.boolean c) => c.default.map ColumnDefault.bool
  | _ => none

/-- A scalar column is accepted, and its default is all that follows its type. -/
theorem Valid.exists_scalarColumn (h : f.Valid) (t : ScalarType) (d : ColumnDefault) :
    ∃ c, compiled (f.scalarColumn t (some d)).make = .ok c ∧ c.type = t.name ∧
      c.modifiers = [Column.defaultAttribute d] := by
  have hname : t.name ≠ "" := by cases t <;> decide
  exact ⟨_, Column.compiled_make_eq_ok.2 ⟨h.key_ne_empty, hname, rfl⟩, rfl, rfl⟩

/-- A field that declares a default is of numbers or of truth values. -/
theorem Valid.exists_of_declaredDefault (h : f.Valid) (hd : f.declaredDefault = some d)
    (settings : BuildSettings) :
    ∃ t, f.column settings = compiled (f.scalarColumn t (some d)).make ∧
      ((∃ b, d = .bool b ∧ t = .boolean) ∨ ∃ n, d = .ofNum n ∧ (t = .int ∨ t = .float)) := by
  rw [declaredDefault] at hd
  split at hd
  · rename_i c hconfig
    obtain ⟨n, hn, rfl⟩ := Option.map_eq_some_iff.1 hd
    refine ⟨if c.format = some .integer then .int else .float, ?_, Or.inr ⟨n, rfl, ?_⟩⟩
    · rw [column, ← h.type_of_config hconfig]
      simp only [FieldConfig.type, proposedColumn, numberColumn, hconfig, hn, Option.map_some]
      rfl
    · split
      · exact Or.inl rfl
      · exact Or.inr rfl
  · rename_i c hconfig
    obtain ⟨b, hb, rfl⟩ := Option.map_eq_some_iff.1 hd
    refine ⟨.boolean, ?_, Or.inl ⟨b, rfl, rfl⟩⟩
    rw [column, ← h.type_of_config hconfig]
    simp only [FieldConfig.type, proposedColumn, booleanColumn, hconfig, hb, Option.map_some]
    rfl
  · cases hd

/-- The only attribute of the column of a field that declares a default is read as a value of the
column's type exactly if the default is plain. -/
theorem Valid.reads_declaredDefault_iff (h : f.Valid) (hd : f.declaredDefault = some d)
    (settings : BuildSettings) :
    ∃ c t, f.column settings = .ok c ∧ c.type = ScalarType.name t ∧
      c.modifiers = [Column.defaultAttribute d] ∧
        ((∃ v, Attribute.defaultValue? (Column.defaultAttribute d) = .ok (some v) ∧
          v.isOf t = true) ↔ d.Plain t) := by
  obtain ⟨t, hcolumn, hkinds⟩ := h.exists_of_declaredDefault hd settings
  obtain ⟨c, hc, htype, hmodifiers⟩ := h.exists_scalarColumn t d
  exact ⟨c, t, hcolumn.trans hc, htype, hmodifiers, ColumnDefault.exists_defaultValue?_iff hkinds⟩

/-- A field of whole numbers that declares two and a half, as it is given. -/
def rawViews : Value := .object [
  ("key", .text "views"), ("label", .text "Views"), ("type", .text "number"),
  ("config", .object [("format", .text "integer"), ("default", .float ⟨0x4004000000000000⟩)])]

/-- The column of whole numbers does not read its default as one. -/
theorem not_reads_declaredDefault_rawViews :
    ∃ f d c, Field.read rawViews = .accepted f ∧ f.declaredDefault = some d ∧
      f.column .standard = .ok c ∧ c.type = ScalarType.name .int ∧
      c.modifiers = [Column.defaultAttribute d] ∧
      ¬ ∃ v, Attribute.defaultValue? (Column.defaultAttribute d) = .ok (some v) ∧
        v.isOf .int = true := by
  obtain ⟨f, hf, hdefault, hint⟩ : ∃ f, Field.read rawViews = .accepted f ∧
      f.declaredDefault = some (.float ⟨0x4004000000000000⟩) ∧
      ∃ c, f.column .standard = .ok c ∧ c.type = "Int" := ⟨_, rfl, rfl, _, rfl, rfl⟩
  obtain ⟨c, t, hc, htype, hmodifiers, hiff⟩ :=
    (valid_of_read hf).1.reads_declaredDefault_iff hdefault .standard
  obtain ⟨c', hc', hint⟩ := hint
  obtain rfl : c = c' := by simpa [hc] using hc'
  obtain rfl : t = .int := by
    rw [htype] at hint
    cases t with
    | int => rfl
    | string | float | boolean | dateTime | json => exact absurd hint (by decide)
  refine ⟨f, _, c, hf, hdefault, hc, htype, hmodifiers, fun hread => ?_⟩
  -- two and a half is not whole, and the column is not of floats
  rcases hiff.1 hread with hwhole | ⟨⟨⟩, -⟩
  exact hwhole (by decide)

end Field

end ContentSchema
