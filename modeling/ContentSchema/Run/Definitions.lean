import ContentSchema.Compilation.Warning
import ContentSchema.Compilation.Whole
import ContentSchema.Config.Basic
import ContentSchema.Run.Stage
import ContentSchema.Source.Database
import ContentSchema.Source.Table

/-!
# Reading definitions

The definitions of a run come from one of three sources: they are given in the configuration, a
loader gives them, or they are stored in a database.  In each case all of them are fetched first,
then each goes through its mapper, and then all are validated, models before components.
-/

namespace ContentSchema

/-- What a run finds around it. -/
structure Surroundings where
  /-- Files. -/
  files : FileSystem
  /-- Environment variables. -/
  environment : Environment
  /-- Databases. -/
  databases : Databases
  /-- Rows that are used in place of those of a database: a source that counts as present.  One that
  counts as absent is not used, as if there were none. -/
  injected : Option RowSource

/-- Items that stand for definitions, from the fetch up to the validation. -/
structure RawDefinitions where
  /-- The models. -/
  models : List Value
  /-- The components. -/
  components : List Value
  /-- What went wrong on the way. -/
  warnings : List Warning

/-- Valid definitions. -/
structure Definitions where
  /-- The models. -/
  models : List ContentModel
  /-- The components by slug. -/
  components : Components
  /-- What went wrong on the way. -/
  warnings : List Warning

namespace Config

/-! ### Fetching -/

/-- The definitions that a loader gives. -/
def callLoader (loader : Hook) : Outcome RawDefinitions := do
  match ← loader.run "input.loader" (.ok .null) none with
  | .object entries =>
    match Entries.find? entries "models" with
    | none => throw (.config .badLoaderResult)
    | some models =>
      let models ← models.members
      let components ← ((Entries.find? entries "components").getD .null).members
      return ⟨models, components, []⟩
  | _ => throw (.config .badLoaderResult)

/-- The rows that a run reads: those that are injected, else those of the database. -/
def rowSource (c : Config) (s : Surroundings) : Outcome RowSource :=
  match s.injected with
  | some source => .ok source
  | none =>
    match c.connectionUrl s.environment with
    | .ok url => .ok (s.databases.source s.files.here url)
    | .error fault => .error (.config fault)

/-- The rows of components.  If their source cannot be read there are none, with a warning. -/
def componentRows (source : RowSource) (table : String) : Outcome (List Value × List Warning) :=
  match source.rows table with
  | .ok rows => .ok (rows, [])
  | .error (.source reason) => .ok ([], [.componentsUnreadable table reason])
  | .error failure => .error failure

/-- The rows of models and, if they have a table, those of components. -/
def fetchRows (c : Config) (source : RowSource) : Outcome RawDefinitions := do
  let models ← source.rows c.tables.models
  let table := c.tables.components.getD ""
  let (components, warnings) ← if table = "" then pure ([], []) else componentRows source table
  return ⟨models, components, warnings⟩

/-- The items of a source, before any mapper. -/
def fetch (c : Config) (s : Surroundings) : InputSource → Outcome RawDefinitions
  | .direct =>
    let given (part : InputSection → Option (List Value)) : List Value :=
      (c.input.bind part).getD []
    .ok ⟨given (·.models), given (·.components), []⟩
  | .loader =>
    match c.input.bind (·.loader) with
    | some loader => callLoader loader
    | none => .ok ⟨[], [], []⟩
  | .database => do
    c.fetchRows (← c.rowSource s)

/-! ### Mapping and validation -/

/-- The mapper of a kind. -/
def mapperOf (c : Config) : DefinitionKind → Option Hook
  | .model => c.mapper.model
  | .component => c.mapper.component

/-- The raw definition that an item of a source stands for.  Rows without a mapper are decoded;
other items stand for themselves. -/
def rawDefinition (c : Config) (source : InputSource) (kind : DefinitionKind) (item : Value) :
    Outcome Value :=
  match source with
  | .database => Row.rawDefinition (c.mapperOf kind) kind item
  | .direct | .loader =>
    match c.mapperOf kind with
    | none => .ok item
    | some mapper => mapper.run kind.mapperRole (.ok ((item.get? "slug").getD .null)) (some item)

/-- Sends all items through their mappers, models first. -/
def mapItems (c : Config) (source : InputSource) (items : RawDefinitions) :
    Outcome RawDefinitions := do
  let models ← items.models.mapM (c.rawDefinition source .model)
  let components ← items.components.mapM (c.rawDefinition source .component)
  return { items with models := models, components := components }

/-- The definitions of a configuration, mapped but not validated. -/
def rawDefinitions (c : Config) (s : Surroundings) : Staged RawDefinitions := do
  let source ← Staged.configured c.inputSource
  Staged.enter .readingSource
  let items ← Staged.ofOutcome (c.fetch s source)
  Staged.enter .applyingMapper
  Staged.ofOutcome (c.mapItems source items)

end Config

/-- The valid model that a value spells. -/
def validModel (raw : Value) : Outcome ContentModel :=
  (ContentModel.validate raw).mapError .definition

/-- The valid component that a value spells. -/
def validComponent (raw : Value) : Outcome Component :=
  (Component.validate raw).mapError .definition

/-- Validates models and then components; of several components with one slug the last one
counts. -/
def RawDefinitions.validate (raw : RawDefinitions) : Outcome Definitions := do
  let models ← raw.models.mapM validModel
  let components ← raw.components.mapM validComponent
  return ⟨models, .ofList components, raw.warnings⟩

/-- The valid definitions of a configuration. -/
def Config.definitions (c : Config) (s : Surroundings) : Staged Definitions := do
  let raw ← c.rawDefinitions s
  Staged.ofOutcome raw.validate

end ContentSchema
