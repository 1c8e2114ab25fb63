import ContentSchema.Proofs.Compilation.Translation
import ContentSchema.Proofs.Run.References

/-!
# Definitions that compile

Valid definitions compile exactly if each relation to many rows leads to a table with a name
(`RawDefinitions.exists_compileModels_iff`).  Slugs and keys always give names, but the target of a
relation may be any text that is not empty, and a text without letters has no name in `PascalCase` or
`camelCase` (`BuildSettings.targetName_eq_empty_iff`).

Success is followed through the compiler: `SucceedsIff` says when a computation succeeds and that
otherwise it rejects a column or a table, and there is one lemma for each function.
-/

namespace ContentSchema

open Naming (Telling)

/-! ### Computations that succeed under a condition -/

/-- The computation succeeds if the condition holds, and otherwise rejects a column or a table. -/
structure SucceedsIff {α : Type} (x : Compiled α) (p : Prop) : Prop where
  /-- Under the condition there is a result. -/
  exists_ok : p → ∃ a, x = .ok a
  /-- Otherwise there are issues. -/
  exists_rejected : ¬ p → ∃ issues, x = .error (.rejected issues)

namespace SucceedsIff

variable {α β : Type} {x : Compiled α} {p q : Prop}

theorem iff (h : SucceedsIff x p) : (∃ a, x = .ok a) ↔ p := by
  refine ⟨fun ⟨a, ha⟩ => ?_, h.exists_ok⟩
  by_contra hp
  obtain ⟨issues, herror⟩ := h.exists_rejected hp
  rw [ha] at herror
  cases herror

theorem not_of_error (h : SucceedsIff x p) {e : CompileError} (he : x = .error e) : ¬ p := by
  intro hp
  obtain ⟨a, ha⟩ := h.exists_ok hp
  rw [he] at ha
  cases ha

theorem rejected_of_error (h : SucceedsIff x p) {e : CompileError} (he : x = .error e) :
    ∃ issues, e = .rejected issues := by
  obtain ⟨issues, herror⟩ := h.exists_rejected (h.not_of_error he)
  rw [he] at herror
  cases herror
  exact ⟨issues, rfl⟩

theorem congr (h : SucceedsIff x p) (hpq : p ↔ q) : SucceedsIff x q :=
  ⟨fun hq => h.exists_ok (hpq.2 hq), fun hq => h.exists_rejected (mt hpq.1 hq)⟩

theorem pure (a : α) : SucceedsIff (Pure.pure a) True :=
  ⟨fun _ => ⟨a, rfl⟩, fun h => absurd trivial h⟩

theorem bind {f : α → Compiled β} (hx : SucceedsIff x p)
    (hf : ∀ a, x = .ok a → SucceedsIff (f a) q) : SucceedsIff (x >>= f) (p ∧ q) := by
  constructor
  · rintro ⟨hp, hq⟩
    obtain ⟨a, rfl⟩ := hx.exists_ok hp
    exact (hf a rfl).exists_ok hq
  · intro hpq
    by_cases hp : p
    · obtain ⟨a, rfl⟩ := hx.exists_ok hp
      exact (hf a rfl).exists_rejected fun hq => hpq ⟨hp, hq⟩
    · obtain ⟨issues, rfl⟩ := hx.exists_rejected hp
      exact ⟨issues, rfl⟩

theorem map (hx : SucceedsIff x p) (f : α → β) : SucceedsIff (f <$> x) p := by
  constructor
  · intro hp
    obtain ⟨a, rfl⟩ := hx.exists_ok hp
    exact ⟨f a, rfl⟩
  · intro hp
    obtain ⟨issues, rfl⟩ := hx.exists_rejected hp
    exact ⟨issues, rfl⟩

/-- A traversal succeeds if all its steps do. -/
theorem mapM {f : α → Compiled β} {p : α → Prop} {l : List α}
    (h : ∀ a ∈ l, SucceedsIff (f a) (p a)) : SucceedsIff (l.mapM f) (∀ a ∈ l, p a) := by
  induction l with
  | nil => exact (pure []).congr (by simp)
  | cons a l ih =>
    rw [List.mapM_cons]
    have hrest := ih fun a' ha' => h a' (List.mem_cons_of_mem _ ha')
    refine ((h a List.mem_cons_self).bind fun b _ => hrest.bind fun bs _ => pure (b :: bs)).congr ?_
    rw [List.forall_mem_cons, and_true]

theorem compiled {x : Checked α} (h : (∃ a, x = .accepted a) ↔ p) : SucceedsIff (compiled x) p := by
  constructor
  · intro hp
    obtain ⟨a, rfl⟩ := h.2 hp
    exact ⟨a, rfl⟩
  · intro hp
    cases x with
    | accepted a => exact absurd (h.1 ⟨a, rfl⟩) hp
    | rejected issues => exact ⟨issues, rfl⟩

end SucceedsIff

theorem Column.succeedsIff_make (c : Column) :
    SucceedsIff (compiled c.make) (c.name ≠ "" ∧ c.type ≠ "") := by
  refine .compiled ⟨fun ⟨c', hc⟩ => ?_, fun ⟨hname, htype⟩ => ?_⟩
  · obtain ⟨hname, htype, -⟩ := compiled_make_eq_ok.1 (compiled_eq_ok.2 hc)
    exact ⟨hname, htype⟩
  · exact ⟨_, compiled_eq_ok.1 (compiled_make_eq_ok.2 ⟨hname, htype, rfl⟩)⟩

theorem Table.succeedsIff_make (t : Table) : SucceedsIff (compiled t.make) (t.name ≠ "") :=
  .compiled ⟨fun ⟨_, ht⟩ => (compiled_make_eq_ok.1 (compiled_eq_ok.2 ht)).1,
    fun hname => ⟨t, compiled_eq_ok.1 (compiled_make_eq_ok.2 ⟨hname, rfl⟩)⟩⟩

/-- A way back needs a name for the table in `snake_case`. -/
theorem Column.succeedsIff_backRelation (table key : String) (action : ReferentialAction) :
    SucceedsIff (backRelation table key action) (Naming.snakeCase table ≠ "") := by
  refine (succeedsIff_make _).congr (and_iff_left_of_imp ?_)
  rintro hname rfl
  exact hname rfl

/-! ### Columns of fields -/

namespace Field

variable {f : Field} {settings : BuildSettings} {owner : String}

/-- If the field is a relation to many rows, their table has a name. -/
def NamesTable (f : Field) (settings : BuildSettings) : Prop :=
  ∀ r ∈ f.relation?, r.cardinality.leadsToMany = true → settings.targetName r.target ≠ ""

/-- If the field is a relation from many rows to many, the way back to their table has a name. -/
def NamesWayBack (f : Field) (settings : BuildSettings) : Prop :=
  ∀ r ∈ f.manyToMany?, Naming.snakeCase (settings.targetName r.target) ≠ ""

theorem Valid.namesTable_of_ne_relation (hf : f.Valid) (htype : f.type ≠ .relation) :
    f.NamesTable settings :=
  fun r hr => absurd (hf.type_eq_relation_iff.2 ⟨r, hr⟩) htype

theorem Valid.exists_proposedColumn (hf : f.Valid) (settings : BuildSettings) :
    ∃ c, f.proposedColumn f.type settings = .ok c := by
  cases htype : f.type with
  | text | rich | select | json | number | boolean | date | media => exact ⟨_, rfl⟩
  | relation =>
    obtain ⟨r, hr⟩ := hf.type_eq_relation_iff.1 htype
    exact ⟨f.relationColumn r settings, by rw [proposedColumn, hr]⟩
  | component =>
    obtain ⟨e, he⟩ := hf.type_eq_component_iff.1 htype
    exact ⟨f.componentColumn e settings, by rw [proposedColumn, he]⟩

theorem Valid.key_ne_empty (hf : f.Valid) : f.key ≠ "" := by
  intro hkey
  have hslug := hf.slug
  rw [hkey] at hslug
  cases hslug

theorem Valid.columnName_ne_empty (hf : f.Valid) : f.columnName settings ≠ "" := by
  rw [columnName]
  split
  · exact Column.append_ne_empty (by decide)
  · exact hf.key_ne_empty

/-- Of the tables that a field may refer to, only that of a relation may have no name. -/
theorem Valid.referredTable?_ne_empty_iff (hf : f.Valid) :
    (∀ table ∈ f.referredTable? settings, table ≠ "") ↔ f.NamesTable settings := by
  rw [referredTable?]
  cases htype : f.type with
  | text | rich | select | json | number | boolean | date =>
    refine iff_of_true ?_ (hf.namesTable_of_ne_relation (by simp [htype]))
    rintro table ⟨⟩
  | media =>
    refine iff_of_true (fun table htable => ?_) (hf.namesTable_of_ne_relation (by simp [htype]))
    dsimp only at htable
    split at htable
    · cases htable
      decide
    · cases htable
  | component =>
    refine iff_of_true (fun table htable => ?_) (hf.namesTable_of_ne_relation (by simp [htype]))
    obtain ⟨e, he, rfl⟩ := Option.map_eq_some_iff.1 htable
    exact (BuildSettings.telling_tableName (hf.isSlug_component he)).ne_empty
  | relation =>
    obtain ⟨r, hr⟩ := hf.type_eq_relation_iff.1 htype
    rw [NamesTable, hr]
    cases hmany : r.cardinality.leadsToMany <;> simp [hmany]

theorem Valid.succeedsIff_column (hf : f.Valid) :
    SucceedsIff (f.column settings) (f.NamesTable settings) := by
  obtain ⟨c, hc⟩ := hf.exists_proposedColumn settings
  have hfits := fits_proposedColumn hc
  have hcolumn : f.column settings = compiled c.make := by
    rw [column, hc]
    rfl
  rw [hcolumn, ← hf.referredTable?_ne_empty_iff]
  refine (Column.succeedsIff_make c).congr ?_
  rw [hfits.name, and_iff_right hf.columnName_ne_empty]
  cases hreferred : f.referredTable? settings with
  | none =>
    have hscalars : ∀ name ∈ ScalarType.all.map (·.name), name ≠ "" := by decide
    exact iff_of_true (hscalars _ (Column.isScalar_iff.1 (hfits.scalar hreferred))) (by simp)
  | some table => simp [hfits.type table hreferred]

theorem Valid.succeedsIff_componentReference (hf : f.Valid) (htype : f.type = .component)
    (howner : Telling owner) : SucceedsIff (f.componentReference owner settings) True := by
  obtain ⟨e, he⟩ := hf.type_eq_component_iff.1 htype
  rw [componentReference, he]
  exact (Column.succeedsIff_make _).congr (iff_of_true
    ⟨hf.key_ne_empty, (howner.componentTableName f.key settings.convention).ne_empty⟩ trivial)

/-- Whether translation is in effect does not matter for names. -/
theorem namesTable_effectiveSettings (m : ContentModel) :
    f.NamesTable (m.effectiveSettings settings) ↔ f.NamesTable settings := by
  obtain ⟨translated, heq⟩ := m.effectiveSettings_eq settings
  rw [heq]
  rfl

end Field

/-! ### Tables -/

section Tables

variable {settings : BuildSettings} {owner : String}

theorem succeedsIff_columns {fields : List Field} (hfields : ∀ f ∈ fields, f.Valid) :
    SucceedsIff (fields.mapM (·.column settings)) (∀ f ∈ fields, f.NamesTable settings) :=
  .mapM fun f hf => (hfields f hf).succeedsIff_column

theorem succeedsIff_translationTable (howner : Telling owner) {fields : List Field}
    (hfields : ∀ f ∈ fields, f.Valid) (mapName : Option String) :
    SucceedsIff (translationTable owner fields settings mapName)
      (∀ f ∈ fields, f.NamesTable settings) := by
  have hname : Naming.translationModelName owner ≠ "" := (howner.append_right _).ne_empty
  rw [translationTable]
  refine .congr ((succeedsIff_columns hfields).bind fun columns _ =>
    (Column.succeedsIff_backRelation owner _ _).bind fun toOwner _ =>
      (Table.succeedsIff_make _).congr (iff_of_true hname trivial)) ?_
  rw [and_true, and_iff_left howner.snakeCase_ne_empty]

theorem succeedsIff_alone_or_translated {moved : List Field} {base : Table}
    {second : Compiled Table} {p : Field → Prop}
    (hsecond : SucceedsIff second (∀ f ∈ moved, p f)) :
    SucceedsIff (if moved.isEmpty then pure [base] else do
      let t ← second
      pure [base, t]) (∀ f ∈ moved, p f) := by
  cases moved with
  | nil => exact (SucceedsIff.pure _).congr (by simp)
  | cons f moved =>
    exact (hsecond.bind fun t _ => SucceedsIff.pure [base, t]).congr (and_iff_left trivial)

/-- The tables of a component succeed if its relations do. -/
theorem Component.Valid.succeedsIff_tables {c : Component} (hc : c.Valid) {e : Embedding}
    (howner : Telling e.owner) :
    SucceedsIff (c.tables e settings) (∀ f ∈ c.storedFields, f.NamesTable settings) := by
  have hvalid : ∀ f ∈ c.storedFields, f.Valid := fun f hf => hc.fields f (List.mem_filter.1 hf).1
  have hname : Telling (e.tableName settings) :=
    howner.componentTableName e.key settings.convention
  have hkept : SucceedsIff ((c.keptFields settings).mapM (·.column settings))
      (∀ f ∈ c.keptFields settings, f.NamesTable settings) :=
    succeedsIff_columns fun f hf => hvalid f (mem_storedFields_iff.2 (Or.inr hf))
  have hmoved (mapName : Option String) : SucceedsIff
      (translationTable (e.tableName settings) (c.movedFields settings) settings mapName)
      (∀ f ∈ c.movedFields settings, f.NamesTable settings) :=
    succeedsIff_translationTable hname (fun f hf => hvalid f (mem_storedFields_iff.2 (Or.inl hf)))
      mapName
  have hstored : (∀ f ∈ c.storedFields, f.NamesTable settings) ↔
      (∀ f ∈ c.movedFields settings, f.NamesTable settings) ∧
        ∀ f ∈ c.keptFields settings, f.NamesTable settings := by
    simp only [@mem_storedFields_iff c settings, or_imp, forall_and]
  rw [tables, hstored]
  refine .congr (hkept.bind fun columns _ =>
    (Column.succeedsIff_backRelation e.owner _ _).bind fun toOwner _ =>
    ((Table.succeedsIff_make _).congr (iff_of_true hname.ne_empty trivial)).bind fun base _ =>
      @succeedsIff_alone_or_translated (c.movedFields settings) _ _ _ (hmoved _)) ?_
  rw [true_and, and_iff_right howner.snakeCase_ne_empty, and_comm]

namespace ContentModel

variable {m : ContentModel} {available : Option (List String)}

/-- The column of a field on the base table is asked for unless the field moves. -/
theorem succeedsIff_baseColumn? {f : Field} (hf : f.Valid) (howner : Telling owner)
    {moved : List String} (hmoved : moved.contains f.key = true → f.isTranslatable = true) :
    SucceedsIff (baseColumn? owner settings available moved f) (f.NamesTable settings) := by
  have hnone : f.type ≠ .relation →
      SucceedsIff (pure (none : Option Column)) (f.NamesTable settings) := fun htype =>
    (SucceedsIff.pure none).congr (iff_of_true trivial (hf.namesTable_of_ne_relation htype))
  rw [baseColumn?]
  split
  · rename_i htype
    have hrelation : f.type ≠ .relation := by simp [htype]
    split
    · exact hnone hrelation
    · exact ((hf.succeedsIff_componentReference htype howner).map some).congr
        (iff_of_true trivial (hf.namesTable_of_ne_relation hrelation))
  · split
    · rename_i hkey
      exact hnone (Field.type_ne_relation (hmoved hkey))
    · exact hf.succeedsIff_column.map some

/-- The tables of a model succeed if its relations do. -/
theorem Valid.succeedsIff_tables (hm : m.Valid) :
    SucceedsIff (m.tables settings available) (∀ f ∈ m.storedFields, f.NamesTable settings) := by
  have hvalid : ∀ f ∈ m.storedFields, f.Valid := fun f hf => hm.fields f (List.mem_filter.1 hf).1
  rw [← forall₂_congr fun f (_ : f ∈ m.storedFields) => Field.namesTable_effectiveSettings m,
    tables]
  generalize m.effectiveSettings settings = used
  have hname : Telling (used.tableName m.slug) := BuildSettings.telling_tableName hm.slug
  have hcolumns : SucceedsIff (m.storedFields.mapM (baseColumn? (used.tableName m.slug) used
      available ((m.movedFields used).map (·.key)))) (∀ f ∈ m.storedFields, f.NamesTable used) :=
    .mapM fun f hf => succeedsIff_baseColumn? (hvalid f hf) hname fun hkey =>
      ((hm.mem_moved_iff used hf).1 (List.contains_iff_mem.1 hkey)).2
  have hmoved (mapName : Option String) : SucceedsIff
      (translationTable (used.tableName m.slug) (m.movedFields used) used mapName)
      (∀ f ∈ m.movedFields used, f.NamesTable used) :=
    succeedsIff_translationTable hname (fun f hf => hvalid f (mem_movedFields.1 hf).2.1) mapName
  refine .congr (hcolumns.bind fun columns _ =>
    ((Table.succeedsIff_make _).congr (iff_of_true hname.ne_empty trivial)).bind fun base _ =>
      @succeedsIff_alone_or_translated (m.movedFields used) _ _ _ (hmoved _)) ?_
  rw [true_and, and_iff_left_iff_imp]
  exact fun h f hf => h f (mem_movedFields.1 hf).2.1

end ContentModel

/-- A junction needs a way back to the target. -/
theorem Field.succeedsIff_junctionTable {f : Field} {r : RelationConfig}
    (hr : f.manyToMany? = some r) (howner : Telling owner) :
    SucceedsIff (f.junctionTable owner settings) (f.NamesWayBack settings) := by
  have hname : Naming.junctionTableName owner (settings.targetName r.target)
      settings.convention ≠ "" := (howner.junctionTableName _ _).ne_empty
  rw [junctionTable, hr]
  refine .congr ((Column.succeedsIff_backRelation owner _ _).bind fun toOwner _ =>
    (Column.succeedsIff_backRelation _ _ _).bind fun toTarget _ =>
      (Table.succeedsIff_make _).congr (iff_of_true hname trivial)) ?_
  rw [and_true, and_iff_right howner.snakeCase_ne_empty, NamesWayBack, hr]
  simp

end Tables

/-! ### All models -/

section Models

variable {models : List ContentModel} {components : Components} {settings : BuildSettings}
  {m : ContentModel}

/-- What a field adds has names: the tables of the component that it embeds, and the way back of a
junction. -/
def Field.NamesAdditions (f : Field) (settings : BuildSettings) (components : Components) : Prop :=
  (∀ c ∈ f.component?, ∀ component ∈ components.find? c.slug,
    ∀ g ∈ component.storedFields, g.NamesTable settings) ∧ f.NamesWayBack settings

theorem ContentModel.succeedsIff_additionOf (hcomponents : ∀ e ∈ components, e.2.Valid)
    {owner : String} (howner : Telling owner) (f : Field) :
    SucceedsIff (m.additionOf settings components owner f)
      (f.NamesAdditions settings components) := by
  rw [additionOf.eq_def, Field.NamesAdditions, Field.NamesWayBack]
  split
  · rename_i c hc
    rw [hc, Field.manyToMany?_eq_none hc]
    split
    · rename_i hfind
      exact (SucceedsIff.pure _).congr (by simp [hfind])
    · rename_i component hfind
      have hvalid := hcomponents _ (Components.mem_of_find?_eq_some hfind)
      have htables : SucceedsIff
          (component.tables ⟨owner, f.key, c.repeatable, c.context⟩ settings)
          (∀ g ∈ component.storedFields, g.NamesTable settings) :=
        hvalid.succeedsIff_tables howner
      refine .congr (htables.bind fun ts _ => SucceedsIff.pure _) ?_
      simp [hfind]
  · rename_i hc
    rw [hc]
    split
    · rename_i hsome
      obtain ⟨r, hr⟩ := Option.isSome_iff_exists.1 hsome
      refine .congr ((Field.succeedsIff_junctionTable hr howner).bind fun t _ =>
        SucceedsIff.pure _) ?_
      simp [Field.NamesWayBack]
    · rename_i hnone
      rw [Option.not_isSome_iff_eq_none.1 hnone]
      exact (SucceedsIff.pure _).congr (by simp)

theorem ContentModel.Valid.succeedsIff_additions (hm : m.Valid)
    (hcomponents : ∀ e ∈ components, e.2.Valid) :
    SucceedsIff (m.additions settings components)
      (∀ f ∈ m.storedFields, f.NamesAdditions settings components) := by
  have heffective : ∀ f : Field, f.NamesAdditions (m.effectiveSettings settings) components ↔
      f.NamesAdditions settings components := fun f => by
    obtain ⟨translated, heq⟩ := m.effectiveSettings_eq settings
    rw [heq]
    rfl
  rw [← forall₂_congr fun f (_ : f ∈ m.storedFields) => heffective f, additions]
  generalize m.effectiveSettings settings = used
  have hfound : SucceedsIff
      (m.storedFields.mapM (m.additionOf used components (used.tableName m.slug)))
      (∀ f ∈ m.storedFields, f.NamesAdditions used components) :=
    .mapM fun f _ =>
      succeedsIff_additionOf hcomponents (BuildSettings.telling_tableName hm.slug) f
  exact .congr (hfound.bind fun found _ => SucceedsIff.pure _) (and_iff_left trivial)

/-- Valid models and components compile exactly if all names that their fields ask for are there. -/
theorem succeedsIff_compileModels (hmodels : ∀ m ∈ models, m.Valid)
    (hcomponents : ∀ e ∈ components, e.2.Valid) :
    SucceedsIff (compileModels models components settings)
      ((∀ m ∈ models, ∀ f ∈ m.storedFields, f.NamesTable settings) ∧
        ∀ m ∈ models, ∀ f ∈ m.storedFields, f.NamesAdditions settings components) := by
  have hown : SucceedsIff (compileOwn models components settings)
      (∀ m ∈ models, ∀ f ∈ m.storedFields, f.NamesTable settings) :=
    .mapM fun m hm => (hmodels m hm).succeedsIff_tables
  have hadditions : SucceedsIff (compileAdditions models components settings)
      (∀ m ∈ models, ∀ f ∈ m.storedFields, f.NamesAdditions settings components) :=
    .mapM fun m hm => (hmodels m hm).succeedsIff_additions hcomponents
  exact .congr (hown.bind fun own _ => hadditions.bind fun additions _ => SucceedsIff.pure _)
    (and_congr_right fun _ => and_iff_left trivial)

end Models

/-! ### Definitions of a run -/

section Definitions

variable {raw : RawDefinitions} {d : Definitions} {settings : BuildSettings}

/-- A table that has a name has one in `snake_case`, unless it is called by an underscore. -/
theorem Field.names_iff {f : Field} : (f.NamesTable settings ∧ f.NamesWayBack settings) ↔
    ∀ r ∈ f.relation?, (r.cardinality.leadsToMany = true → settings.targetName r.target ≠ "") ∧
      (r.cardinality = .manyToMany → settings.targetName r.target ≠ "_") := by
  constructor
  · rintro ⟨htable, hback⟩ r hr
    refine ⟨htable r hr, fun hmany hunderscore => ?_⟩
    exact hback r (manyToMany?_eq_some.2 ⟨hr, hmany⟩)
      (Naming.snakeCase_eq_empty_iff.2 (Or.inr hunderscore))
  · intro h
    refine ⟨fun r hr => (h r hr).1, fun r hr hnone => ?_⟩
    obtain ⟨hrelation, hmany⟩ := manyToMany?_eq_some.1 hr
    rcases Naming.snakeCase_eq_empty_iff.1 hnone with hempty | hunderscore
    · exact (h r hrelation).1 (by rw [hmany]; rfl) hempty
    · exact (h r hrelation).2 hmany hunderscore

/-- Definitions that are valid compile exactly if the target of each relation to many rows has a
name, which is no underscore if the relation is from many rows.  If they do not compile, a column or
a table is rejected: the type of a field is never unknown, and no configuration is missing. -/
theorem RawDefinitions.exists_compileModels_iff (hd : raw.validate = .ok d)
    (settings : BuildSettings) :
    ((∃ compilation, compileModels d.models d.components settings = .ok compilation) ↔
      (∀ m ∈ d.models, ∀ f ∈ m.storedFields, ∀ r ∈ f.relation?,
        (r.cardinality.leadsToMany = true → settings.targetName r.target ≠ "") ∧
        (r.cardinality = .manyToMany → settings.targetName r.target ≠ "_")) ∧
      ∀ component, d.Embeds component → ∀ f ∈ component.storedFields, ∀ r ∈ f.relation?,
        r.cardinality.leadsToMany = true → settings.targetName r.target ≠ "") ∧
    ∀ e, compileModels d.models d.components settings = .error e →
      ∃ issues, e = .rejected issues := by
  have hvalid := Definitions.valid_of_validate hd
  have hcompile : SucceedsIff (compileModels d.models d.components settings) _ :=
    succeedsIff_compileModels hvalid.models fun e he => (hvalid.components e he).1
  refine ⟨hcompile.iff.trans ?_, fun e => hcompile.rejected_of_error⟩
  simp only [← Field.names_iff]
  constructor
  · rintro ⟨htables, hadditions⟩
    refine ⟨fun m hm f hf => ⟨htables m hm f hf, (hadditions m hm f hf).2⟩, ?_⟩
    rintro component ⟨m, hm, f, hf, c, hc, hfind⟩
    exact (hadditions m hm f hf).1 c hc component hfind
  · rintro ⟨hmodels, hcomponents⟩
    refine ⟨fun m hm f hf => (hmodels m hm f hf).1, fun m hm f hf => ⟨?_, (hmodels m hm f hf).2⟩⟩
    exact fun c hc component hfind => hcomponents component ⟨m, hm, f, hf, c, hc, hfind⟩

end Definitions

/-- Posts with links to something that is called by a hyphen. -/
def rawHyphen : RawDefinitions where
  models := [.object [
    ("slug", .text "post"), ("name", .text "Post"),
    ("fields", .list [
      .object [("key", .text "links"), ("label", .text "Links"), ("type", .text "relation"),
        ("config", .object [
          ("relationType", .text "oneToMany"), ("targetModel", .text "-")])]])]]
  components := []
  warnings := []

/-- The posts are valid, and the table of their links has no name. -/
theorem nameless_links : ∃ d, rawHyphen.validate = .ok d ∧ ∃ m ∈ d.models, ∃ f ∈ m.storedFields,
    ∃ r ∈ f.relation?, r.cardinality.leadsToMany = true ∧
      BuildSettings.standard.targetName r.target = "" :=
  ⟨_, rfl, _, List.mem_cons_self, _, List.mem_cons_self, _, rfl, rfl, by decide +kernel⟩

/-- The posts do not compile. -/
theorem not_exists_compileModels_rawHyphen : ∃ d, rawHyphen.validate = .ok d ∧
    ¬ ∃ compilation, compileModels d.models d.components .standard = .ok compilation := by
  obtain ⟨d, hd, m, hm, f, hf, r, hr, hmany, hempty⟩ := nameless_links
  obtain ⟨hiff, -⟩ := RawDefinitions.exists_compileModels_iff hd .standard
  refine ⟨d, hd, fun hcompiles => ?_⟩
  exact ((hiff.1 hcompiles).1 m hm f hf r hr).1 hmany hempty

end ContentSchema
