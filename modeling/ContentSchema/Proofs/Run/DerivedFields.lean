import ContentSchema.Proofs.Compilation.Known
import ContentSchema.Proofs.Compilation.Locality
import ContentSchema.Proofs.Run.Indifference
import ContentSchema.Proofs.Run.Warnings

/-!
# Derived fields

Derived fields take no column, neither those of models nor those of the components that models
embed.  A run warns of those of models only.

* `compileModels_stored`: without its derived fields a definition has the same tables, but for their
  indexes.
* `Generation.Accounted.skips_iff`: which fields a run says it skipped.
* `exists_omitted_of_generate`: what a run leaves out, and exactly when it says so of all of it.
-/

namespace ContentSchema

/-! ### Definitions without derived fields -/

/-- The model without its derived fields. -/
def ContentModel.stored (m : ContentModel) : ContentModel := { m with fields := m.storedFields }

/-- The component without its derived fields. -/
def Component.stored (c : Component) : Component := { c with fields := c.storedFields }

/-- The components without their derived fields. -/
def Components.stored (components : Components) : Components :=
  components.map fun e => (e.1, e.2.stored)

/-- The definitions without derived fields. -/
def Definitions.stored (d : Definitions) : Definitions :=
  { d with models := d.models.map (·.stored), components := d.components.stored }

/-- The table without its indexes, which may name derived fields. -/
def Table.unindexed (t : Table) : Table := { t with indexes := [] }

theorem ContentModel.storedFields_stored (m : ContentModel) :
    m.stored.storedFields = m.storedFields := by
  rw [storedFields, stored, storedFields, List.filter_filter]
  simp only [Bool.and_self]

theorem Component.storedFields_stored (c : Component) : c.stored.storedFields = c.storedFields := by
  rw [storedFields, stored, storedFields, List.filter_filter]
  simp only [Bool.and_self]

/-- An embedded component has the tables that it has without its derived fields. -/
theorem Component.tables_stored (c : Component) (e : Embedding) (settings : BuildSettings) :
    c.stored.tables e settings = c.tables e settings := by
  have hplace : c.stored.placeFields settings = c.placeFields settings := by
    rw [placeFields, placeFields, storedFields_stored]
  rw [tables, tables, hplace]

theorem Table.matching_make_unindexed {t u : Table} (h : Same Table.unindexed t u) :
    Matching (Same Table.unindexed) (compiled t.make) (compiled u.make) := by
  have hsame : t.unindexed = u.unindexed := h
  have hname : t.unindexed.name = u.unindexed.name := by rw [hsame]
  change t.name = u.name at hname
  rw [make, make, hname]
  split
  · exact .error _
  · exact .ok h

/-- A model has the tables that it has without its derived fields, but for their indexes. -/
theorem ContentModel.matching_tables_stored (m : ContentModel) (settings : BuildSettings)
    (available : Option (List String)) :
    Matching (Same (List.map Table.unindexed)) (m.tables settings available)
      (m.stored.tables settings available) := by
  have hmoved : ∀ settings, m.stored.movedFields settings = m.movedFields settings := by
    intro settings
    rw [movedFields, movedFields, storedFields_stored]
  have hsettings : m.stored.effectiveSettings settings = m.effectiveSettings settings := rfl
  rw [tables_eq, tables_eq, hsettings, storedFields_stored]
  dsimp only
  rw [hmoved]
  refine .bind_same _ fun columns => ?_
  have hbase : Same Table.unindexed (m.baseTable (m.effectiveSettings settings) columns)
      (m.stored.baseTable (m.effectiveSettings settings) columns) := by
    rw [Same, baseTable, baseTable, hmoved]
    rfl
  refine (Table.matching_make_unindexed hbase).bind fun base base' hsame => ?_
  split
  · exact .ok (congrArg (fun t => [t]) hsame)
  · refine .bind_same _ fun translations => .ok ?_
    exact congrArg (fun t => [t, translations.unindexed]) hsame

namespace Components

variable (components : Components)

theorem slugs_stored : components.stored.slugs = components.slugs := by
  rw [slugs, stored, List.map_map]
  rfl

theorem find?_stored (slug : String) :
    components.stored.find? slug = (components.find? slug).map (·.stored) := by
  induction components with
  | nil => rfl
  | cons e components ih =>
    obtain ⟨key, c⟩ := e
    rw [find?, find?, stored, List.map_cons, List.lookup_cons, List.lookup_cons]
    cases slug == key with
    | true => rfl
    | false => exact ih

end Components

/-- The fields of a model add what they add without any derived field. -/
theorem ContentModel.additions_stored (m : ContentModel) (settings : BuildSettings)
    (components : Components) :
    m.stored.additions settings components.stored = m.additions settings components := by
  have hof : ∀ settings owner, m.stored.additionOf settings components.stored owner =
      m.additionOf settings components owner := by
    intro settings owner
    funext f
    rw [additionOf.eq_def, additionOf.eq_def]
    cases f.component? with
    | none => rfl
    | some config =>
      dsimp only
      rw [Components.find?_stored]
      cases components.find? config.slug with
      | none => rfl
      | some c =>
        dsimp only [Option.map_some]
        rw [c.tables_stored]
  have hsettings : m.stored.effectiveSettings settings = m.effectiveSettings settings := rfl
  have hslug : m.stored.slug = m.slug := rfl
  simp only [additions, storedFields_stored, hsettings, hslug, hof]

/-- Which additions are kept does not hang on the models' own tables. -/
theorem unindexed_groupTables {own own' : List (List Table)}
    (h : List.Forall₂ (Same (List.map Table.unindexed)) own own') (seen : List String)
    (additions : List (List Addition)) :
    ((groupTables seen (own.zip additions)).flatMap (·.tables)).map Table.unindexed =
      ((groupTables seen (own'.zip additions)).flatMap (·.tables)).map Table.unindexed := by
  induction h generalizing seen additions with
  | nil => rfl
  | @cons ts ts' _ _ hsame _ ih =>
    cases additions with
    | nil => rfl
    | cons added additions =>
      rw [List.zip_cons_cons, List.zip_cons_cons, groupTables_cons, groupTables_cons,
        List.flatMap_cons, List.flatMap_cons, List.map_append, List.map_append]
      refine congrArg₂ (· ++ ·) ?_ (ih _ additions)
      rw [Group.tables, Group.tables, List.map_append, List.map_append]
      exact congrArg (· ++ _) hsame

/-- Without derived fields the tables of definitions are the same, but for their indexes. -/
theorem compileModels_stored {d : Definitions} {settings : BuildSettings}
    {compilation : Compilation}
    (h : compileModels d.models d.components settings = .ok compilation) :
    ∃ stored, compileModels d.stored.models d.stored.components settings = .ok stored ∧
      compilation.tables.map Table.unindexed = stored.tables.map Table.unindexed := by
  obtain ⟨own, additions, hown, hadditions, rfl⟩ := compileModels_eq_ok.1 h
  have hmodels : List.Forall₂ (fun m m' => m' = m.stored) d.models d.stored.models :=
    List.forall₂_map_right_iff.2 (List.forall₂_same.2 fun _ _ => rfl)
  have hmatching : Matching (List.Forall₂ (Same (List.map Table.unindexed)))
      (compileOwn d.models d.components settings)
      (compileOwn d.stored.models d.stored.components settings) := by
    rw [compileOwn, compileOwn, Definitions.stored, Components.slugs_stored]
    exact .mapM hmodels fun m m' hm => hm ▸ m.matching_tables_stored settings _
  have hadditions' : compileAdditions d.stored.models d.stored.components settings =
      .ok additions := by
    rw [← hadditions]
    refine (mapM_eq_of_forall₂ (hmodels.imp fun m m' hm => ?_)).symm
    rw [hm]
    exact (m.additions_stored settings d.components).symm
  rw [hown] at hmatching
  generalize hmade : compileOwn d.stored.models d.stored.components settings = made at hmatching
  cases hmatching with
  | @ok _ own' hsame =>
    exact ⟨_, compileModels_eq_ok.2 ⟨own', additions, hmade, hadditions', rfl⟩,
      unindexed_groupTables hsame [] additions⟩

/-- Merging does not look at indexes. -/
theorem mergeTables_congr_unindexed {made made' : List Table}
    (h : made.map Table.unindexed = made'.map Table.unindexed) (external : List Table) :
    (mergeTables external made).1.map Table.unindexed =
      (mergeTables external made').1.map Table.unindexed := by
  have hmerge : ∀ generated,
      (external.map Table.unindexed ++ generated.map Table.unindexed).foldl putTable [] =
        (mergeTables external generated).1.map Table.unindexed := by
    intro generated
    rw [mergeTables, ← List.map_append, putTable_eq_putBy]
    exact foldl_putBy_map (fun _ => rfl) _ []
  rw [← hmerge, ← hmerge, h]

/-! ### What a run says of derived fields -/

/-- A derived field of a component that a stored field of a model embeds. -/
def Definitions.EmbedsDerived (d : Definitions) (f : Field) : Prop :=
  ∃ m ∈ d.models, ∃ e ∈ m.storedFields, ∃ config ∈ e.component?,
    ∃ c ∈ d.components.find? config.slug, f ∈ c.fields ∧ f.derived

/-- A derived field of a model. -/
def Definitions.HasDerived (d : Definitions) (f : Field) : Prop :=
  ∃ m ∈ d.models, f ∈ m.fields ∧ f.derived

/-- The run warns that it skipped a derived field with a key. -/
def Generation.Skips (g : Generation) (key : String) : Prop :=
  ∃ slug, .derivedSkipped slug key ∈ g.warnings

/-- A model's warnings about derived fields name their keys. -/
theorem ContentModel.mem_derivedWarnings {m : ContentModel} {slug key : String} :
    .derivedSkipped slug key ∈ m.derivedWarnings ↔
      m.slug = slug ∧ ∃ f ∈ m.fields, f.derived ∧ f.key = key := by
  simp only [derivedWarnings, List.mem_map, List.mem_filter, Warning.derivedSkipped.injEq]
  constructor
  · rintro ⟨f, ⟨hf, hderived⟩, hslug, hkey⟩
    exact ⟨hslug, f, hf, hderived, hkey⟩
  · rintro ⟨hslug, f, hf, hderived, hkey⟩
    exact ⟨f, ⟨hf, hderived⟩, hslug, hkey⟩

namespace Config

variable {c : Config} {s : Surroundings} {d : Definitions} {compilation : Compilation}

/-- The warnings about derived fields in a run are those about derived fields of its models. -/
theorem derivedSkipped_mem_iff (hd : (c.definitions s).outcome = .ok d)
    {settings : BuildSettings}
    (hcompilation : compileModels d.models d.components settings = .ok compilation)
    (collisions : List String) {slug key : String} :
    .derivedSkipped slug key ∈ (s.files.externalTables c.external).2 ++ d.warnings ++
        compilation.warnings ++ collisions.map Warning.collision ↔
      ∃ m ∈ d.models, m.slug = slug ∧ ∃ f ∈ m.fields, f.derived ∧ f.key = key := by
  have hmodels : .derivedSkipped slug key ∈ d.models.flatMap (·.derivedWarnings) ↔
      ∃ m ∈ d.models, m.slug = slug ∧ ∃ f ∈ m.fields, f.derived ∧ f.key = key := by
    simp only [List.mem_flatMap, ContentModel.mem_derivedWarnings]
  rw [← hmodels, c.externalTables_snd, warnings_of_definitions hd,
    warnings_of_compileModels hcompilation]
  simp only [List.mem_append]
  refine ⟨?_, fun hmem => .inl (.inr (.inl hmem))⟩
  rintro (((hmem | hmem) | (hmem | hmem)) | hmem)
  · obtain ⟨_, _, hne⟩ := isExternal_of_mem_loadWarnings _ hmem
    cases hne
  · obtain ⟨_, _, hne⟩ := exists_of_mem_readWarnings _ hmem
    cases hne
  · exact hmem
  · obtain ⟨m, -, hmem⟩ := List.mem_flatMap.1 hmem
    obtain ⟨f, -, hf⟩ := List.mem_filterMap.1 hmem
    obtain ⟨config, -, hf⟩ := Option.bind_eq_some_iff.1 hf
    split at hf <;> cases hf
  · obtain ⟨name, -, hname⟩ := List.mem_map.1 hmem
    cases hname

end Config

/-- What a run leaves out of its tables and what it says of it.  Its tables are, but for their
indexes, those of its definitions without any derived field, of models and of components.  It says
that it skipped a key exactly if a derived field of a model has this key; so it says so of all that
it leaves out exactly if each derived field of an embedded component shares its key with a derived
field of a model. -/
structure Generation.Omits (g : Generation) (external : List Table) (d : Definitions)
    (stored : Compilation) : Prop where
  /-- Derived fields take no column. -/
  tables : g.tables.map Table.unindexed = (mergeTables external stored.tables).1.map Table.unindexed
  /-- A run warns of derived fields of models. -/
  skips : ∀ key, g.Skips key ↔ ∃ f, d.HasDerived f ∧ f.key = key
  /-- A run may leave out derived fields of components without a word. -/
  all : (∀ f, d.HasDerived f ∨ d.EmbedsDerived f → g.Skips f.key) ↔
    ∀ f, d.EmbedsDerived f → ∃ f', d.HasDerived f' ∧ f'.key = f.key

/-- A successful run leaves out all derived fields, of models and of the components that they embed,
and warns of those of models only. -/
theorem exists_omits_of_generate {c : Config} {s : Surroundings} {g : Generation}
    (h : (c.generate s).outcome = .ok g) :
    ∃ d stored, (c.definitions s).outcome = .ok d ∧
      compileModels d.stored.models d.stored.components
        (c.buildSettings ((c.externalTables s).map (·.name))) = .ok stored ∧
      g.Omits (c.externalTables s) d stored := by
  obtain ⟨d, compilation, hd, hcompilation, htables, -, hwarnings⟩ :=
    Config.exists_parts_of_generate h
  obtain ⟨stored, hstored, hsame⟩ := compileModels_stored hcompilation
  have hskips : ∀ key, g.Skips key ↔ ∃ f, d.HasDerived f ∧ f.key = key := by
    intro key
    simp only [Generation.Skips, hwarnings, Config.derivedSkipped_mem_iff hd hcompilation,
      Definitions.HasDerived]
    constructor
    · rintro ⟨_, m, hm, -, f, hf, hderived, hkey⟩
      exact ⟨f, ⟨m, hm, hf, hderived⟩, hkey⟩
    · rintro ⟨f, ⟨m, hm, hf, hderived⟩, hkey⟩
      exact ⟨_, m, hm, rfl, f, hf, hderived, hkey⟩
  refine ⟨d, stored, hd, hstored, ?_, hskips, ?_⟩
  · rw [htables]
    exact mergeTables_congr_unindexed hsame _
  · simp only [hskips]
    constructor
    · exact fun hall f hf => hall f (.inr hf)
    · rintro hall f (hf | hf)
      · exact ⟨f, hf, rfl⟩
      · exact hall f hf

/-! ### A page with a derived field in a component -/

/-- A page that embeds a description. -/
def rawPage : Value := .object [
  ("slug", .text "page"), ("name", .text "Page"),
  ("fields", .list [
    .object [("key", .text "seo"), ("label", .text "SEO"), ("type", .text "component"),
      ("config", .object [("slug", .text "description")])]])]

/-- A description with a title and a summary, which is derived. -/
def rawDescription : Value := .object [
  ("slug", .text "description"), ("name", .text "Description"),
  ("fields", .list [
    .object [("key", .text "title"), ("label", .text "Title"), ("type", .text "text")],
    .object [("key", .text "summary"), ("label", .text "Summary"), ("type", .text "text"),
      ("derived", .bool true)]])]

set_option maxRecDepth 4000 in
/-- The run over a page makes two tables and has no warnings. -/
theorem exists_generate_rawPage :
    ∃ g, ((configWith rawPage rawDescription).generate nothing).outcome = .ok g ∧
      g.tableNames = ["Page", "PageSeo"] ∧ g.warnings = [] := by
  refine ⟨_, rfl, ?_⟩
  decide +kernel

set_option maxRecDepth 4000 in
/-- The page embeds a derived summary. -/
theorem exists_embedsDerived_rawPage :
    ∃ d f, ((configWith rawPage rawDescription).definitions nothing).outcome = .ok d ∧
      d.EmbedsDerived f ∧ f.key = "summary" := by
  refine ⟨_, _, rfl, ⟨_, .head _, _, .head _, _, rfl, _, rfl, .tail _ (.head _), rfl⟩, rfl⟩

/-- The run over a page leaves out the derived summary of its component without a word. -/
theorem not_skips_rawPage :
    ∃ g d stored f, ((configWith rawPage rawDescription).generate nothing).outcome = .ok g ∧
      ((configWith rawPage rawDescription).definitions nothing).outcome = .ok d ∧
      g.Omits ((configWith rawPage rawDescription).externalTables nothing) d stored ∧
      d.EmbedsDerived f ∧ f.key = "summary" ∧ ¬ g.Skips f.key := by
  obtain ⟨g, hg, -, hwarnings⟩ := exists_generate_rawPage
  obtain ⟨d, stored, hd, -, homits⟩ := exists_omits_of_generate hg
  obtain ⟨d', f, hd', hembeds, hkey⟩ := exists_embedsDerived_rawPage
  cases hd.symm.trans hd'
  refine ⟨g, d, stored, f, hg, hd, homits, hembeds, hkey, ?_⟩
  rintro ⟨slug, hskipped⟩
  rw [hwarnings] at hskipped
  cases hskipped

end ContentSchema
