import ContentSchema.Proofs.Compilation.Known
import ContentSchema.Proofs.Definition.Indifference
import ContentSchema.Run.Generation

/-!
# Unknown entries never reach a schema

A run whose definitions have more unknown entries, wherever the definitions come from
(`Config.Extended`), stops at the same failure or shows the same (`shown_generate_eq_of_extended`).
Both runs are followed side by side (`Matching`), from what is fetched to what is printed; in
between, definitions, tables and all else are the same but for unknown entries.
-/

namespace ContentSchema

open Checked

/-! ### Definitions with more entries -/

theorem matching_validateWith {α β : Type} {kind : DefinitionKind} {check : Reader α} {f : α → β}
    {raw raw' : Value} (hcheck : f <$> check raw = f <$> check raw')
    (hslug : rawSlug? raw = rawSlug? raw') :
    Matching (Same f) (validateWith kind check raw) (validateWith kind check raw') := by
  have halike := alike_same_iff.2 hcheck
  rw [validateWith, validateWith, hslug]
  generalize check raw = x at halike ⊢
  generalize check raw' = y at halike ⊢
  cases halike with
  | accepted h => exact .ok h
  | rejected issues => exact .error _

/-- Raw definitions and such with more entries, one by one. -/
structure RawDefinitions.Extended (raw raw' : RawDefinitions) : Prop where
  /-- The models have more entries. -/
  models : List.Forall₂ (DefinitionKind.Extended .model) raw.models raw'.models
  /-- The components have more entries. -/
  components : List.Forall₂ (DefinitionKind.Extended .component) raw.components raw'.components
  /-- The same went wrong on the way. -/
  warnings : raw.warnings = raw'.warnings

/-- The definitions without unknown entries. -/
def Definitions.known (d : Definitions) : Definitions :=
  ⟨d.models.map (·.known), d.components.known, d.warnings⟩

/-- What a run tells of definitions does not depend on unknown entries. -/
theorem Definitions.told_eq {d d' : Definitions} (h : d.known = d'.known) :
    d.models.map (·.slug) = d'.models.map (·.slug) ∧ d.models.length = d'.models.length ∧
      d.components.length = d'.components.length ∧ d.warnings = d'.warnings := by
  have hmodels : d.models.map (·.known) = d'.models.map (·.known) := congrArg Definitions.models h
  have hcomponents : d.components.known = d'.components.known := congrArg Definitions.components h
  refine ⟨?_, ?_, ?_, (congrArg Definitions.warnings h :)⟩
  · have hslugs := congrArg (List.map ContentModel.slug) hmodels
    rw [List.map_map, List.map_map] at hslugs
    exact hslugs
  · simpa using congrArg List.length hmodels
  · simpa [Components.known] using congrArg List.length hcomponents

theorem RawDefinitions.Extended.matching_validate {raw raw' : RawDefinitions}
    (h : raw.Extended raw') : Matching (Same Definitions.known) raw.validate raw'.validate := by
  have hmodels : Matching (List.Forall₂ (Same ContentModel.known))
      (raw.models.mapM validModel) (raw'.models.mapM validModel) :=
    .mapM h.models fun _ _ hraw =>
      (matching_validateWith hraw.check_model hraw.rawSlug?_eq).mapError _
  have hcomponents : Matching (List.Forall₂ (Same Component.known))
      (raw.components.mapM validComponent) (raw'.components.mapM validComponent) :=
    .mapM h.components fun _ _ hraw =>
      (matching_validateWith hraw.check_component hraw.rawSlug?_eq).mapError _
  refine hmodels.bind fun ms ms' hms => hcomponents.bind fun cs cs' hcs => .ok ?_
  rw [forall₂_same_iff] at hms hcs
  simp only [Same, Definitions.known, ← Components.ofList_known, hms, hcs, h.warnings]

/-! ### Sources whose definitions have more entries -/

/-- What may differ in what a loader gives. -/
def loadedInside (name : String) : Value → Value → Prop :=
  if name = "models" then Value.InItems (DefinitionKind.Extended .model)
  else if name = "components" then Value.InItems (DefinitionKind.Extended .component)
  else Eq

/-- The keys of what a loader gives. -/
def loadedKeys : List Key := [.plain "models", .plain "components"]

/-- A loader gives definitions with more entries. -/
def Hook.Extended (loader loader' : Hook) : Prop :=
  Matching (Value.InObject (Entries.Extended loadedKeys loadedInside)) (loader.call none)
    (loader'.call none)

/-- The definitions that are given, or those of the loader, have more entries. -/
structure InputSection.Extended (input input' : InputSection) : Prop where
  /-- The models have more entries. -/
  models : Option.Rel (List.Forall₂ (DefinitionKind.Extended .model)) input.models input'.models
  /-- The components have more entries. -/
  components : Option.Rel (List.Forall₂ (DefinitionKind.Extended .component)) input.components
    input'.components
  /-- The loader gives definitions with more entries. -/
  loader : Option.Rel Hook.Extended input.loader input'.loader

/-- The definitions that rows hold have more entries. -/
def DefinitionKind.RowExtended (kind : DefinitionKind) (row row' : Value) : Prop :=
  Matching kind.Extended (Row.decode row) (Row.decode row')

/-- The definitions in the tables have more entries. -/
structure RowSource.Extended (tables : TablesSection) (source source' : RowSource) : Prop where
  /-- The models have more entries. -/
  models : Matching (List.Forall₂ (DefinitionKind.RowExtended .model)) (source.rows tables.models)
    (source'.rows tables.models)
  /-- The components have more entries, if they have a table. -/
  components : ∀ table ∈ tables.components, table ≠ "" →
    Matching (List.Forall₂ (DefinitionKind.RowExtended .component)) (source.rows table)
      (source'.rows table)

theorem DefinitionKind.Extended.refl (kind : DefinitionKind) (v : Value) : kind.Extended v v := by
  cases kind <;> exact .same v

theorem RowSource.Extended.refl (tables : TablesSection) (source : RowSource) :
    source.Extended tables source := by
  have hrows : ∀ kind : DefinitionKind, ∀ table,
      Matching (List.Forall₂ kind.RowExtended) (source.rows table) (source.rows table) :=
    fun kind _ => .refl (fun _ => List.forall₂_same.2 fun _ _ => .refl (.refl kind) _) _
  exact ⟨hrows .model _, fun table _ _ => hrows .component table⟩

/-- A run differs from another one in its definitions only, wherever they come from, and these have
more entries. -/
structure Config.Extended (c : Config) (s : Surroundings) (c' : Config) (s' : Surroundings) :
    Prop where
  /-- Only the definitions of the configuration differ. -/
  config : c' = { c with input := c'.input }
  /-- Only the databases and rows around it differ. -/
  surroundings : s' = { s with databases := s'.databases, injected := s'.injected }
  /-- Definitions that are given or loaded have more entries. -/
  input : Option.Rel InputSection.Extended c.input c'.input
  /-- Definitions that are stored have more entries. -/
  rows : Matching (RowSource.Extended c.tables) (c.rowSource s) (c'.rowSource s')

/-! ### Fetching and mapping -/

theorem forall₂_getD {E : Value → Value → Prop} {items items' : Option (List Value)}
    (h : Option.Rel (List.Forall₂ E) items items') :
    List.Forall₂ E (items.getD []) (items'.getD []) := by
  cases h with
  | none => exact .nil
  | some h => exact h

theorem Value.InItems.matching_members {E : Value → Value → Prop} (hE : ∀ v, E v v) {v w : Value}
    (h : Value.InItems E v w) : Matching (List.Forall₂ E) v.members w.members := by
  cases h with
  | same v => exact .refl (fun items => List.forall₂_same.2 fun v _ => hE v) _
  | list h =>
    cases h with
    | nil => exact .ok .nil
    | cons hv h => exact .ok (.cons hv h)

theorem RawDefinitions.Extended.refl (raw : RawDefinitions) : raw.Extended raw where
  models := List.forall₂_same.2 fun v _ => .refl _ v
  components := List.forall₂_same.2 fun v _ => .refl _ v
  warnings := rfl

theorem Hook.Extended.matching_callLoader {loader loader' : Hook} (h : loader.Extended loader') :
    Matching RawDefinitions.Extended (Config.callLoader loader) (Config.callLoader loader') := by
  refine (h.mapError _).bind fun v w hvw => ?_
  cases hvw with
  | same v => exact .refl .refl _
  | @object entries entries' h =>
    have hmodels := h.agree (.plain "models") (by decide) "models" (Or.inl rfl)
    have hcomponents := h.agree (.plain "components") (by decide) "components" (Or.inl rfl)
    dsimp only
    generalize entries.find? "models" = models at hmodels ⊢
    generalize entries'.find? "models" = models' at hmodels ⊢
    generalize entries.find? "components" = components at hcomponents ⊢
    generalize entries'.find? "components" = components' at hcomponents ⊢
    have hcomponents : Value.InItems (DefinitionKind.Extended .component)
        (components.getD .null) (components'.getD .null) := by
      cases hcomponents with
      | none => exact .same _
      | some h => exact h
    cases hmodels with
    | none => exact .error _
    | some hmodels =>
      refine (Value.InItems.matching_members (.refl _) hmodels).bind fun ms ms' hms => ?_
      refine (Value.InItems.matching_members (.refl _) hcomponents).bind fun cs cs' hcs => ?_
      exact .ok ⟨hms, hcs, rfl⟩

theorem isSome_eq_of_rel {α β : Type} {R : α → β → Prop} {x : Option α} {y : Option β}
    (h : Option.Rel R x y) : x.isSome = y.isSome := by
  cases h <;> rfl

namespace Config

variable {c c' : Config} {s s' : Surroundings}

/-- The items of a source lead to definitions with more entries. -/
structure ItemsExtended (c c' : Config) (source : InputSource) (items items' : RawDefinitions) :
    Prop where
  /-- The models have more entries. -/
  models : List.Forall₂ (fun v w => Matching (DefinitionKind.Extended .model)
    (c.rawDefinition source .model v) (c'.rawDefinition source .model w)) items.models items'.models
  /-- The components have more entries. -/
  components : List.Forall₂ (fun v w => Matching (DefinitionKind.Extended .component)
    (c.rawDefinition source .component v) (c'.rawDefinition source .component w)) items.components
    items'.components
  /-- The same went wrong on the way. -/
  warnings : items.warnings = items'.warnings

theorem ItemsExtended.matching_mapItems {source : InputSource} {items items' : RawDefinitions}
    (h : ItemsExtended c c' source items items') :
    Matching RawDefinitions.Extended (c.mapItems source items) (c'.mapItems source items') := by
  refine (Matching.mapM h.models fun _ _ h => h).bind fun ms ms' hms => ?_
  refine (Matching.mapM h.components fun _ _ h => h).bind fun cs cs' hcs => ?_
  exact .ok ⟨hms, hcs, h.warnings⟩

/-! Without mappers, items of a source are definitions, or rows that hold some. -/

section Unmapped

variable (hc : c.mapper = .none) (hc' : c'.mapper = .none)
include hc

theorem mapperOf_eq_none (kind : DefinitionKind) : c.mapperOf kind = none := by
  cases kind <;> rw [mapperOf, hc] <;> rfl

theorem rawDefinition_of_ne_database {source : InputSource} (hsource : source ≠ .database)
    (kind : DefinitionKind) (item : Value) : c.rawDefinition source kind item = .ok item := by
  cases source with
  | database => exact absurd rfl hsource
  | direct | loader => rw [rawDefinition, mapperOf_eq_none hc]

theorem rawDefinition_database (kind : DefinitionKind) (item : Value) :
    c.rawDefinition .database kind item = Row.decode item := by
  rw [rawDefinition, mapperOf_eq_none hc, Row.rawDefinition]

include hc'

theorem itemsExtended_of_extended {source : InputSource} (hsource : source ≠ .database)
    {items items' : RawDefinitions} (h : items.Extended items') :
    ItemsExtended c c' source items items' where
  models := h.models.imp fun v w hvw => by
    rw [rawDefinition_of_ne_database hc hsource, rawDefinition_of_ne_database hc' hsource]
    exact .ok hvw
  components := h.components.imp fun v w hvw => by
    rw [rawDefinition_of_ne_database hc hsource, rawDefinition_of_ne_database hc' hsource]
    exact .ok hvw
  warnings := h.warnings

end Unmapped

theorem matching_componentRows {R : Value → Value → Prop} {source source' : RowSource}
    {table : String} (h : Matching (List.Forall₂ R) (source.rows table) (source'.rows table)) :
    Matching (fun found found' => List.Forall₂ R found.1 found'.1 ∧ found.2 = found'.2)
      (componentRows source table) (componentRows source' table) := by
  rw [componentRows, componentRows]
  generalize source.rows table = rows at h ⊢
  generalize source'.rows table = rows' at h ⊢
  cases h with
  | ok h => exact .ok ⟨h, rfl⟩
  | error failure =>
    cases failure with
    | source reason => exact .ok ⟨.nil, rfl⟩
    | config | definition | payload | hook | compile | file | slip | foreign | abandoned =>
      exact .error _

theorem matching_fetchRows (hc : c.mapper = .none) (hc' : c'.mapper = .none)
    (htables : c'.tables = c.tables) {source source' : RowSource}
    (h : source.Extended c.tables source') :
    Matching (ItemsExtended c c' .database) (c.fetchRows source) (c'.fetchRows source') := by
  have hrow : ∀ kind v w, kind.RowExtended v w → Matching kind.Extended
      (c.rawDefinition .database kind v) (c'.rawDefinition .database kind w) := by
    intro kind v w hvw
    rw [rawDefinition_database hc, rawDefinition_database hc']
    exact hvw
  rw [fetchRows, fetchRows, htables]
  refine h.models.bind fun ms ms' hms => ?_
  dsimp only
  split
  · exact .ok ⟨hms.imp (hrow .model), .nil, rfl⟩
  · rename_i htable
    cases hsome : c.tables.components with
    | none => exact absurd (by rw [hsome]; rfl) htable
    | some table =>
      rw [hsome] at htable
      refine (matching_componentRows (h.components table hsome htable)).bind ?_
      rintro ⟨cs, warnings⟩ ⟨cs', warnings'⟩ ⟨hcs, hwarnings⟩
      exact .ok ⟨hms.imp (hrow .model), hcs.imp (hrow .component), hwarnings⟩

theorem Extended.given (h : c.Extended s c' s') :
    RawDefinitions.Extended
      ⟨(c.input.bind (·.models)).getD [], (c.input.bind (·.components)).getD [], []⟩
      ⟨(c'.input.bind (·.models)).getD [], (c'.input.bind (·.components)).getD [], []⟩ := by
  have hinput := h.input
  generalize c.input = input at hinput ⊢
  generalize c'.input = input' at hinput ⊢
  cases hinput with
  | none => exact .refl _
  | some hinput =>
    refine ⟨?_, ?_, rfl⟩
    · exact forall₂_getD hinput.models
    · exact forall₂_getD hinput.components

theorem Extended.matching_fetch (h : c.Extended s c' s') (hc : c.mapper = .none)
    (source : InputSource) :
    Matching (ItemsExtended c c' source) (c.fetch s source) (c'.fetch s' source) := by
  have hc' : c'.mapper = .none := by
    rw [h.config]
    exact hc
  cases source with
  | direct => exact .ok (itemsExtended_of_extended hc hc' (by decide) h.given)
  | loader =>
    have hinput := h.input
    rw [fetch, fetch]
    generalize c.input = input at hinput ⊢
    generalize c'.input = input' at hinput ⊢
    have hloader : Option.Rel Hook.Extended (input.bind (·.loader)) (input'.bind (·.loader)) := by
      cases hinput with
      | none => exact .none
      | some hinput => exact hinput.loader
    have hnot : InputSource.loader ≠ .database := by decide
    generalize input.bind (·.loader) = loader at hloader ⊢
    generalize input'.bind (·.loader) = loader' at hloader ⊢
    cases hloader with
    | none => exact .ok (itemsExtended_of_extended hc hc' hnot (.refl _))
    | some hloader =>
      exact hloader.matching_callLoader.imp fun _ _ => itemsExtended_of_extended hc hc' hnot
  | database =>
    have htables : c'.tables = c.tables := by rw [h.config]
    exact h.rows.bind fun source source' hsource => matching_fetchRows hc hc' htables hsource

theorem Extended.inputSource_eq (h : c.Extended s c' s') : c.inputSource = c'.inputSource := by
  have hinput := h.input
  rw [inputSource, inputSource, show c'.connection = c.connection by rw [h.config]]
  generalize c.input = input at hinput ⊢
  generalize c'.input = input' at hinput ⊢
  have hmodels : (input.bind (·.models)).isSome = (input'.bind (·.models)).isSome := by
    cases hinput with
    | none => rfl
    | some hinput => exact isSome_eq_of_rel hinput.models
  have hloader : (input.bind (·.loader)).isSome = (input'.bind (·.loader)).isSome := by
    cases hinput with
    | none => rfl
    | some hinput => exact isSome_eq_of_rel hinput.loader
  rw [hmodels, hloader]

theorem Extended.matching_rawDefinitions (h : c.Extended s c' s') (hc : c.mapper = .none) :
    Matching RawDefinitions.Extended (c.rawDefinitions s).outcome
      (c'.rawDefinitions s').outcome := by
  refine Staged.matching_bind (R := Eq) ?_ fun source _ hsource => ?_
  · rw [h.inputSource_eq]
    exact .refl (fun _ => rfl) _
  subst hsource
  refine Staged.matching_bind (R := Eq) (.ok rfl) fun _ _ _ => ?_
  refine Staged.matching_bind (h.matching_fetch hc source) fun items items' hitems => ?_
  refine Staged.matching_bind (R := Eq) (.ok rfl) fun _ _ _ => ?_
  exact hitems.matching_mapItems

/-! ### Runs -/

theorem schemaText_known (schema : Schema) : schemaText schema.known = schemaText schema := by
  rw [schemaText, schemaText, schema.holdsOversized_known, schema.print_known]

/-- Definitions are compiled alike if they are the same but for unknown entries. -/
theorem matching_compile {d d' : Definitions} (h : d.known = d'.known) (names : List String) :
    Matching (Same Compilation.known) (c.compile d names).outcome (c.compile d' names).outcome := by
  have hmodels : d.models.map (·.known) = d'.models.map (·.known) := congrArg Definitions.models h
  have hcomponents : d.components.known = d'.components.known := congrArg Definitions.components h
  have hown : Matching (Same (List.map (List.map Table.known)))
      (compileOwn d.models d.components (c.buildSettings names))
      (compileOwn d'.models d'.components (c.buildSettings names)) := by
    rw [Matching.same_iff, ← compileOwn_known, ← compileOwn_known, hmodels, hcomponents]
  have hadditions : Matching (Same (List.map (List.map Addition.known)))
      (compileAdditions d.models d.components (c.buildSettings names))
      (compileAdditions d'.models d'.components (c.buildSettings names)) := by
    rw [Matching.same_iff, ← compileAdditions_known, ← compileAdditions_known, hmodels, hcomponents]
  refine Staged.matching_bind (R := Eq) (.ok rfl) fun _ _ _ => ?_
  refine Staged.matching_bind (hown.mapError Failure.compile) fun own own' hown => ?_
  refine Staged.matching_bind (R := Eq) (.ok rfl) fun _ _ _ => ?_
  refine Staged.matching_bind (hadditions.mapError Failure.compile) fun adds adds' hadds => ?_
  refine .ok ?_
  rw [Same, ← Compilation.ofParts_known, ← Compilation.ofParts_known, hmodels, hown, hadds]

end Config

/-- What a run tells of a compilation does not depend on unknown entries. -/
theorem Compilation.told_eq {made made' : Compilation} (h : made.known = made'.known) :
    made.derivedCount = made'.derivedCount ∧ made.warnings = made'.warnings := by
  refine ⟨?_, (congrArg Compilation.warnings h :)⟩
  rw [← made.derivedCount_known, h, made'.derivedCount_known]

/-- Merging keeps the same tables and has the same collisions, whatever unknown entries there are. -/
theorem mergeTables_congr {made made' : Compilation} (h : made.known = made'.known)
    (external : List Table) :
    (mergeTables external made.tables).1.map (·.known) =
        (mergeTables external made'.tables).1.map (·.known) ∧
      (mergeTables external made.tables).2 = (mergeTables external made'.tables).2 := by
  have htables : made.tables.map (·.known) = made'.tables.map (·.known) := by
    rw [← Compilation.tables_known, ← Compilation.tables_known, h]
  have hmerge := mergeTables_known external made.tables
  rw [htables, mergeTables_known] at hmerge
  exact ⟨(congrArg Prod.fst hmerge).symm, (congrArg Prod.snd hmerge).symm⟩

/-- The generation without unknown entries in the rules of columns. -/
def Generation.known (g : Generation) : Generation := { g with tables := g.tables.map (·.known) }

namespace Config

variable {c c' : Config} {s s' : Surroundings}

theorem Extended.matching_definitions (h : c.Extended s c' s') (hc : c.mapper = .none) :
    Matching (Same Definitions.known) (c.definitions s).outcome (c'.definitions s').outcome :=
  Staged.matching_bind (h.matching_rawDefinitions hc) fun _ _ hraw => hraw.matching_validate

theorem Extended.matching_generate (h : c.Extended s c' s') (hc : c.mapper = .none) :
    Matching (Same Generation.known) (c.generate s).outcome (c'.generate s').outcome := by
  have hdefinitions := h.matching_definitions hc
  have hsource := h.inputSource_eq
  obtain ⟨hconfig, hsurroundings, -, -⟩ := h
  rw [generate, generate, Staged.outcome_finish, Staged.outcome_finish, run, run, ← hsource]
  refine Staged.matching_bind (.refl (R := Eq) (fun _ => rfl) _) fun _ _ _ => ?_
  refine Staged.matching_bind (R := Eq) (.ok rfl) fun _ _ _ => ?_
  rw [show c'.external = c.external by rw [hconfig], show s'.files = s.files by rw [hsurroundings]]
  obtain ⟨external, externalWarnings⟩ := s.files.externalTables c.external
  refine Staged.matching_bind hdefinitions fun d d' (hd : d.known = d'.known) => ?_
  have hcompile : c'.compile d' (external.map (·.name)) = c.compile d' (external.map (·.name)) := by
    rw [hconfig]
    rfl
  rw [hcompile]
  refine Staged.matching_bind (matching_compile hd _)
    fun made made' (hmade : made.known = made'.known) => ?_
  have hmerged := mergeTables_congr hmade external
  generalize mergeTables external made.tables = merged at hmerged ⊢
  generalize mergeTables external made'.tables = merged' at hmerged ⊢
  obtain ⟨tables, collisions⟩ := merged
  obtain ⟨tables', collisions'⟩ := merged'
  obtain ⟨htables, rfl⟩ := hmerged
  refine Staged.matching_bind (R := Eq) (.ok rfl) fun _ _ _ => ?_
  have hprinted : schemaText ⟨c.output.datasource, c.allGenerators, tables⟩ =
      schemaText ⟨c'.output.datasource, c'.allGenerators, tables'⟩ := by
    rw [← schemaText_known, ← schemaText_known ⟨c'.output.datasource, _, _⟩, hconfig]
    exact congrArg (schemaText ⟨c.output.datasource, c.allGenerators, ·⟩) htables
  rw [hprinted]
  refine Staged.matching_bind (.refl (R := Eq) (fun _ => rfl) _) fun text _ htext => ?_
  subst htext
  obtain ⟨hslugs, hmodels, hcomponents, hwarnings⟩ := Definitions.told_eq hd
  obtain ⟨hcount, hmissing⟩ := Compilation.told_eq hmade
  refine .ok ?_
  simp only [Same, Generation.known, hslugs, hmodels, hcomponents, hcount, hwarnings, hmissing]
  rw [htables]

/-- Another loader or other given definitions change nothing around a run. -/
theorem Extended.of_input {input' : Option InputSection}
    (h : Option.Rel InputSection.Extended c.input input') :
    c.Extended s { c with input := input' } s where
  config := rfl
  surroundings := rfl
  input := h
  rows := .refl (RowSource.Extended.refl c.tables) _

end Config

/-- What a run shows: the text of the schema, the warnings and the names of the tables. -/
def Generation.shown (g : Generation) : List Char × List Warning × List String :=
  (g.schema, g.warnings, g.tableNames)

/-- Entries that the library does not know never influence a schema.  A definition with more of them
has the same issues, and a run without mappers whose definitions have more of them stops at the same
failure or shows the same. -/
theorem shown_generate_eq_of_extended :
    (∀ (kind : DefinitionKind) (raw raw' : Value), kind.Extended raw raw' →
      definitionIssues kind raw = definitionIssues kind raw') ∧
    ∀ (c c' : Config) (s s' : Surroundings), c.Extended s c' s' → c.mapper = .none →
      Generation.shown <$> (c.generate s).outcome =
        Generation.shown <$> (c'.generate s').outcome := by
  refine ⟨fun kind raw raw' h => h.definitionIssues_eq, fun c c' s s' h hmapper => ?_⟩
  rw [← Matching.same_iff]
  refine (h.matching_generate hmapper).imp fun g g' (hg : g.known = g'.known) => ?_
  have hschema : g.schema = g'.schema := (congrArg Generation.schema hg :)
  have hwarnings : g.warnings = g'.warnings := (congrArg Generation.warnings hg :)
  have hnames := congrArg Generation.tableNames hg
  rw [Generation.tableNames, Generation.tableNames, Generation.known, Generation.known,
    List.map_map, List.map_map] at hnames
  rw [Same, Generation.shown, Generation.shown, hschema, hwarnings]
  exact congrArg (g'.schema, g'.warnings, ·) hnames

/-! ### Articles with notes -/

/-- A configuration that gives one model and one component. -/
def configWith (model component : Value) : Config where
  connection := none
  input := some ⟨some [model], some [component], none⟩
  tables := .standard
  mapper := .none
  external := none
  output := .standard
  translation := .standard
  naming := .standard
  generators := []

/-- An object behind further entries. -/
def objectBehind (more entries : Entries) : Value := .object (more ++ entries)

/-- An article with a state, a teaser in variants and a title, where entries may stand in front of
each object. -/
def rawArticle (more : Entries) : Value := objectBehind more [
  ("slug", .text "article"), ("name", .text "Article"),
  ("fields", .list [
    objectBehind more [
      ("key", .text "state"), ("label", .text "State"), ("type", .text "select"),
      ("config", objectBehind more [
        ("options", .list [objectBehind more [("value", .text "new"), ("label", .text "New")]])])],
    objectBehind more [
      ("key", .text "intro"), ("label", .text "Intro"), ("type", .text "component"),
      ("config", objectBehind more [
        ("slug", .text "teaser"),
        ("context", objectBehind more [
          ("abTesting", objectBehind more [("enabled", .bool true)])])])],
    objectBehind more [
      ("key", .text "title"), ("label", .text "Title"), ("type", .text "text"),
      ("validation", objectBehind more [("maxLength", .int 80)])]]),
  ("settings", objectBehind more [("sortField", .text "title")])]

/-- A teaser with a text. -/
def rawTeaser (more : Entries) : Value := objectBehind more [
  ("slug", .text "teaser"), ("name", .text "Teaser"),
  ("fields", .list [
    objectBehind more [("key", .text "text"), ("label", .text "Text"), ("type", .text "text")]])]

/-- A note on an object of a definition. -/
def note : Entries := [("note", .text "to be discussed")]

/-- The notes are entries that no class of the library knows. -/
theorem extended_rawArticle : DefinitionKind.Extended .model (rawArticle []) (rawArticle note) := by
  refine Value.InObject.object (.add (by decide) (.keep rfl (.keep rfl
    (.keep (Value.InItems.list ?fields) (.keep (Value.InObject.object ?settings) .nil)))))
  case settings => exact .add (by decide) (.keep rfl .nil)
  case fields =>
    refine .cons (.object ?state) (.cons (.object ?intro) (.cons (.object ?title) .nil))
    case state =>
      refine .add (by decide) (.keep rfl (.keep rfl (.keep rfl
        (.keep (Value.InObject.object ?_) .nil))))
      refine .add (by decide) (.keep (Value.InItems.list (.cons (.object ?_) .nil)) .nil)
      exact .add (by decide) (.keep rfl (.keep rfl .nil))
    case intro =>
      refine .add (by decide) (.keep rfl (.keep rfl (.keep rfl
        (.keep (Value.InObject.object ?_) .nil))))
      refine .add (by decide) (.keep rfl (.keep (Value.InObject.object ?_) .nil))
      refine .add (by decide) (.keep (Value.InObject.object ?_) .nil)
      exact .add (by decide) (.keep rfl .nil)
    case title =>
      refine .add (by decide) (.keep rfl (.keep rfl (.keep rfl
        (.keep (Value.InObject.object ?_) .nil))))
      exact .add (by decide) (.keep rfl .nil)

theorem extended_rawTeaser : DefinitionKind.Extended .component (rawTeaser []) (rawTeaser note) := by
  refine Value.InObject.object (.add (by decide) (.keep rfl (.keep rfl
    (.keep (Value.InItems.list (.cons (.object ?_) .nil)) .nil))))
  exact .add (by decide) (.keep rfl (.keep rfl (.keep rfl .nil)))

/-- Nothing is around the runs over articles. -/
def nothing : Surroundings := ⟨⟨[], []⟩, [], [], none⟩

set_option maxRecDepth 4000 in
/-- A run over articles makes two tables. -/
theorem exists_generate_rawArticle :
    ∃ g, ((configWith (rawArticle []) (rawTeaser [])).generate nothing).outcome = .ok g ∧
      g.tableNames = ["Article", "ArticleIntro"] := by
  refine ⟨_, rfl, ?_⟩
  decide +kernel

/-- The article with notes has no issues, and a run over it shows what a run without them shows. -/
theorem shown_generate_rawArticle :
    definitionIssues .model (rawArticle note) = [] ∧
      ∃ g g', ((configWith (rawArticle []) (rawTeaser [])).generate nothing).outcome = .ok g ∧
        ((configWith (rawArticle note) (rawTeaser note)).generate nothing).outcome = .ok g' ∧
        g.shown = g'.shown ∧ g.tableNames = ["Article", "ArticleIntro"] := by
  obtain ⟨hissues, hrun⟩ := shown_generate_eq_of_extended
  have hextended : (configWith (rawArticle []) (rawTeaser [])).Extended nothing
      (configWith (rawArticle note) (rawTeaser note)) nothing :=
    .of_input (.some ⟨.some (.cons extended_rawArticle .nil),
      .some (.cons extended_rawTeaser .nil), .none⟩)
  constructor
  · rw [← hissues .model _ _ extended_rawArticle]
    decide +kernel
  · obtain ⟨g, hg, hnames⟩ := exists_generate_rawArticle
    have hshown := Matching.same_iff.2 (hrun _ _ _ _ hextended rfl)
    rw [hg] at hshown
    generalize hother : ((configWith (rawArticle note) (rawTeaser note)).generate
      nothing).outcome = other at hshown
    cases hshown with
    | @ok _ g' h => exact ⟨g, g', hg, rfl, h, hnames⟩

end ContentSchema
