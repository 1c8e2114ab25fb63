import ContentSchema.Proofs.Compilation.Distinct
import ContentSchema.Proofs.Compilation.Instances

/-!
# Names that instances need

The table of instances of an embedded component has columns of its own, next to those of fields.
Validation keeps some of their names free, as keys of fields.  When this is enough for each of them
to occur once is told by `Component.count_eq_one_iff_clear`: columns of fields are called by more
than keys, and the names of the order, the translations, the key of the owner and the way back to it
are not kept free at all.
-/

namespace ContentSchema

/-! ### Names that occur once -/

/-- All names of a list occur once if they are different and none is among those behind it. -/
theorem forall_count_append_eq_one_iff {names others : List String} :
    (∀ name ∈ names, (names ++ others).count name = 1) ↔
      names.Nodup ∧ ∀ name ∈ others, name ∉ names := by
  constructor
  · intro h
    have hcounts : ∀ name ∈ names, names.count name = 1 ∧ others.count name = 0 := by
      intro name hname
      have hpos := List.count_pos_iff.2 hname
      have hsum := h name hname
      rw [List.count_append] at hsum
      omega
    exact ⟨List.nodup_iff_count_eq_one.2 fun name hname => (hcounts name hname).1,
      fun name hother hname => List.count_eq_zero.1 (hcounts name hname).2 hother⟩
  · rintro ⟨hnodup, hother⟩ name hname
    rw [List.count_append, List.nodup_iff_count_eq_one.1 hnodup name hname,
      List.count_eq_zero.2 fun hmem => hother name hmem hname]

namespace Component

variable {c : Component} {e : Embedding} {settings : BuildSettings} {ts : List Table} {f : Field}

/-! ### Names of a table of instances -/

/-- The columns of instances that are called alike for all owners. -/
def fixedNames (c : Component) (e : Embedding) (settings : BuildSettings) : List String :=
  Field.systemKeys ++ (if e.repeatable then ["order"] else []) ++
    (if e.hasVariants then variantKeys else []) ++
    (if (c.movedFields settings).isEmpty then [] else ["translations"])

/-- The columns that instances have besides those of fields. -/
def ownNames (c : Component) (e : Embedding) (settings : BuildSettings) : List String :=
  [Naming.foreignKeyName e.owner, Naming.backRelationName e.owner] ++ c.fixedNames e settings

/-- The fixed names that a column of a valid field may have. -/
def openNames (c : Component) (e : Embedding) (settings : BuildSettings) : List String :=
  (if e.repeatable then ["order"] else []) ++ (if e.hasVariants then ["variant_id"] else []) ++
    (if (c.movedFields settings).isEmpty then [] else ["translations"])

theorem nodup_fixedNames (c : Component) (e : Embedding) (settings : BuildSettings) :
    (c.fixedNames e settings).Nodup := by
  rw [fixedNames]
  cases e.repeatable <;> cases e.hasVariants <;> cases (c.movedFields settings).isEmpty <;> decide

theorem mem_fixedNames_iff {name : String} : name ∈ c.fixedNames e settings ↔
    name ∈ Field.systemKeys ∨ (e.repeatable = true ∧ name = "order") ∨
      (e.hasVariants = true ∧ name ∈ variantKeys) ∨
      (c.movedFields settings ≠ [] ∧ name = "translations") := by
  simp [fixedNames]

theorem mem_openNames_iff {name : String} : name ∈ c.openNames e settings ↔
    (e.repeatable = true ∧ name = "order") ∨ (e.hasVariants = true ∧ name = "variant_id") ∨
      (c.movedFields settings ≠ [] ∧ name = "translations") := by
  simp [openNames]

/-- A name with the suffix is fixed only if it is that of the identifiers of variants. -/
theorem append_id_mem_fixedNames_iff {s : String} : s ++ "_id" ∈ c.fixedNames e settings ↔
    e.hasVariants = true ∧ s ++ "_id" = "variant_id" := by
  have hsystem : s ++ "_id" ∉ Field.systemKeys := by
    simp only [Field.systemKeys, List.mem_cons, List.not_mem_nil, or_false, not_or]
    exact ⟨Field.append_id_ne (by decide), Field.append_id_ne (by decide),
      Field.append_id_ne (by decide)⟩
  have horder : s ++ "_id" ≠ "order" := Field.append_id_ne (by decide)
  have henabled : s ++ "_id" ≠ "enabled" := Field.append_id_ne (by decide)
  have htranslations : s ++ "_id" ≠ "translations" := Field.append_id_ne (by decide)
  rw [mem_fixedNames_iff]
  simp [hsystem, horder, henabled, htranslations, variantKeys]

/-- A column of a valid field has a fixed name only if it is open. -/
theorem Valid.columnName_mem_fixedNames_iff (hc : c.Valid) (hf : f ∈ c.storedFields) :
    f.columnName settings ∈ c.fixedNames e settings ↔
      f.columnName settings ∈ c.openNames e settings := by
  have hmem := (List.mem_filter.1 hf).1
  have hsystem : f.columnName settings ∉ Field.systemKeys :=
    (hc.fields f hmem).columnName_not_mem_systemKeys
  have henabled : f.columnName settings ≠ "enabled" := by
    rcases f.columnName_eq_or settings with hname | hname
    · rw [hname]
      rintro hkey
      exact hc.own f hmem (hkey ▸ by decide)
    · rw [hname]
      exact Field.append_id_ne (by decide)
  rw [mem_fixedNames_iff, mem_openNames_iff]
  simp [hsystem, henabled, variantKeys]

/-- The names of the columns of instances are their own and those of the fields that stay. -/
theorem perm_columnNames_instanceTable {columns : List Column}
    (h : (c.keptFields settings).mapM (·.column settings) = .ok columns) :
    (c.instanceTable e settings columns (.wayBack e.owner .cascade)).columnNames.Perm
      (c.ownNames e settings ++ (c.keptFields settings).map (·.columnName settings)) := by
  have hlast : (if (c.movedFields settings).isEmpty then []
        else [Column.translations (e.tableName settings)]).map (·.name) =
      if (c.movedFields settings).isEmpty then [] else ["translations"] := by
    cases (c.movedFields settings).isEmpty <;> rfl
  rw [instanceTable_eq_tableWith, Embedding.columnNames_tableWith, hlast,
    Field.map_name_of_mapM_column h, ownNames, fixedNames, Field.systemKeys]
  refine List.perm_iff_count.2 fun name => ?_
  simp only [List.count_append, List.count_cons, List.count_nil]
  ac_rfl

/-! ### When each name occurs once -/

/-- The names of an owner and of the fields that stay keep clear of those that instances need. -/
structure Clear (c : Component) (e : Embedding) (settings : BuildSettings) : Prop where
  /-- The way back to the owner has no fixed name. -/
  back : Naming.backRelationName e.owner ∉ c.fixedNames e settings
  /-- The key of the owner is not called like the identifiers of variants, if there are any. -/
  key : e.hasVariants = true → Naming.foreignKeyName e.owner ≠ "variant_id"
  /-- The column of a field has none of the names that are made for the owner, and no fixed name. -/
  fields : ∀ f ∈ c.keptFields settings, f.columnName settings ∉
    [Naming.foreignKeyName e.owner, Naming.backRelationName e.owner] ++ c.openNames e settings

theorem nodup_ownNames_iff : (c.ownNames e settings).Nodup ↔
    Naming.backRelationName e.owner ∉ c.fixedNames e settings ∧
      (e.hasVariants = true → Naming.foreignKeyName e.owner ≠ "variant_id") := by
  have hkey : Naming.foreignKeyName e.owner ∉ c.fixedNames e settings ↔
      (e.hasVariants = true → Naming.foreignKeyName e.owner ≠ "variant_id") := by
    rw [Naming.foreignKeyName, append_id_mem_fixedNames_iff, not_and]
  have hne : Naming.foreignKeyName e.owner ≠ Naming.backRelationName e.owner :=
    Field.append_id_ne_self _
  rw [ownNames, List.cons_append, List.cons_append, List.nil_append, List.nodup_cons,
    List.nodup_cons, List.mem_cons, or_iff_right hne, hkey,
    and_iff_left (nodup_fixedNames c e settings), and_comm]

/-- Each column that instances have besides those of fields has a name that occurs once, exactly if
the names of the owner and of the fields that stay keep clear of them. -/
theorem count_eq_one_iff_clear {v : Value} (hc : Component.check v = .accepted c)
    (h : c.tables e settings = .ok ts) : ∃ instances more, ts = instances :: more ∧
      ((∀ name ∈ c.ownNames e settings, instances.columnNames.count name = 1) ↔
        c.Clear e settings) := by
  have hvalid := Component.valid_of_check hc
  obtain ⟨-, columns, toOwner, hcolumns, htoOwner, hts⟩ := tables_eq_ok h
  obtain rfl := Column.backRelation_eq_ok htoOwner
  have hperm := @perm_columnNames_instanceTable c e settings columns hcolumns
  obtain ⟨more, rfl⟩ : ∃ more,
      ts = c.instanceTable e settings columns (.wayBack e.owner .cascade) :: more := by
    rcases hts with ⟨-, hts⟩ | ⟨-, t, -, hts⟩
    · exact ⟨[], hts⟩
    · exact ⟨[t], hts⟩
  have hfields : (∀ f ∈ c.keptFields settings, f.columnName settings ∉ c.ownNames e settings) ↔
      ∀ f ∈ c.keptFields settings, f.columnName settings ∉
        [Naming.foreignKeyName e.owner, Naming.backRelationName e.owner] ++
          c.openNames e settings := by
    refine forall₂_congr fun f hf => ?_
    have hstored : f ∈ c.storedFields := mem_storedFields_iff.2 (Or.inr hf)
    rw [ownNames, List.mem_append, List.mem_append, hvalid.columnName_mem_fixedNames_iff hstored]
  refine ⟨_, more, rfl, ?_⟩
  simp only [hperm.count_eq]
  rw [forall_count_append_eq_one_iff, nodup_ownNames_iff, List.forall_mem_map, hfields, and_assoc]
  exact ⟨fun ⟨hback, hkey, hfields⟩ => ⟨hback, hkey, hfields⟩,
    fun h => ⟨h.back, h.key, h.fields⟩⟩

/-- A teaser with an image for its variant, as it is given. -/
def rawVariant : Value := .object [
  ("slug", .text "teaser"), ("name", .text "Teaser"),
  ("fields", .list [
    .object [("key", .text "variant"), ("label", .text "Variant"), ("type", .text "media"),
      ("translatable", .bool false)]])]

/-- A post has a teaser, and variants of it are tested. -/
def testedTeaser : Embedding where
  owner := "Post"
  key := "teaser"
  repeatable := false
  context := some ⟨none, some ⟨true, 2, []⟩, []⟩

/-- The identifier of the image is called like that of the variant. -/
theorem not_count_eq_one_rawVariant : ∃ c instances more,
    Component.check rawVariant = .accepted c ∧
    c.tables testedTeaser .standard = .ok (instances :: more) ∧
    instances.columnNames =
      ["id", "post_id", "variant_id", "enabled", "variant_id", "created_at", "updated_at", "post"] ∧
    ¬ ∀ name ∈ c.ownNames testedTeaser .standard, instances.columnNames.count name = 1 := by
  obtain ⟨c, instances, more, hc, hts, hnames, f, hf, hname⟩ : ∃ c instances more,
      Component.check rawVariant = .accepted c ∧
      c.tables testedTeaser .standard = .ok (instances :: more) ∧
      instances.columnNames = ["id", "post_id", "variant_id", "enabled", "variant_id",
        "created_at", "updated_at", "post"] ∧
      ∃ f ∈ c.keptFields .standard,
        f.columnName .standard ∈ c.openNames testedTeaser .standard :=
    ⟨_, _, _, rfl, rfl, by decide +kernel, _, List.mem_cons_self, by decide +kernel⟩
  obtain ⟨_, _, heq, hiff⟩ := count_eq_one_iff_clear hc hts
  obtain ⟨rfl, rfl⟩ := List.cons.inj heq
  exact ⟨c, instances, more, hc, hts, hnames,
    fun h => (hiff.1 h).fields f hf (List.mem_append_right _ hname)⟩

end Component

end ContentSchema
