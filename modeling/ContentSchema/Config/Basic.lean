import ContentSchema.External.Load
import ContentSchema.Files.Environment
import ContentSchema.Hook.Basic
import ContentSchema.Naming.Table
import ContentSchema.Schema.Basic

/-!
# Configurations

Everything that one run takes: where the definitions come from, how tables are named, whether
translations are made, which external tables there are and where the schema goes.
-/

namespace ContentSchema

/-- Definitions that are given, or a loader that gives them. -/
structure InputSection where
  /-- Models. -/
  models : Option (List Value)
  /-- Components. -/
  components : Option (List Value)
  /-- A loader. -/
  loader : Option Hook

/-- The tables that hold stored definitions. -/
structure TablesSection where
  /-- The table of models. -/
  models : String
  /-- The table of components. -/
  components : Option String
deriving Repr

/-- What turns stored items into definitions. -/
structure MapperSection where
  /-- The mapper of models. -/
  model : Option Hook
  /-- The mapper of components. -/
  component : Option Hook

/-- Where the schema goes, and what stands at its start. -/
structure OutputSection where
  /-- The file of the schema. -/
  schemaPath : String
  /-- Where the client is generated. -/
  clientPath : Option String
  /-- Features of the client that are switched on. -/
  previewFeatures : List String
  /-- Where the data live. -/
  datasource : Datasource
deriving Repr

/-- How translations are made. -/
structure TranslationSection where
  /-- Whether they are made. -/
  enabled : Bool
  /-- How their tables are called. -/
  pattern : String
  /-- The language of the tables themselves. -/
  language : String
deriving Repr

/-- How tables are named. -/
structure NamingSection where
  /-- How names are built. -/
  convention : Convention
  /-- What stands in front of every name. -/
  lead : Option String
deriving Repr

/-- A configuration. -/
structure Config where
  /-- The address of the database with stored definitions. -/
  connection : Option String
  /-- Definitions that are given. -/
  input : Option InputSection
  /-- Where stored definitions are. -/
  tables : TablesSection
  /-- What turns stored items into definitions. -/
  mapper : MapperSection
  /-- Tables that are declared elsewhere. -/
  external : Option ExternalTables
  /-- Where the schema goes. -/
  output : OutputSection
  /-- How translations are made. -/
  translation : TranslationSection
  /-- How tables are named. -/
  naming : NamingSection
  /-- What else is generated from the schema. -/
  generators : List Generator

/-- Where definitions come from. -/
inductive InputSource where
  /-- They are given. -/
  | direct
  /-- A loader gives them. -/
  | loader
  /-- They are stored in a database. -/
  | database
deriving DecidableEq, Repr

/-- The name of a source. -/
def InputSource.name : InputSource → String
  | direct => "direct"
  | loader => "loader"
  | database => "database"

/-! ### Defaults -/

/-- Models are stored in one table, and there are no components. -/
def TablesSection.standard : TablesSection := ⟨"content_model", none⟩

/-- No mappers. -/
def MapperSection.none : MapperSection := ⟨.none, .none⟩

/-- The file of the schema unless another one is named. -/
def defaultSchemaPath : String := "./prisma/schema.prisma"

/-- A schema for SQLite with a plain client. -/
def OutputSection.standard : OutputSection := ⟨defaultSchemaPath, none, [], .standard⟩

/-- No translations. -/
def TranslationSection.standard : TranslationSection := ⟨false, Naming.defaultPattern, "en"⟩

/-- Pascal case names. -/
def NamingSection.standard : NamingSection := ⟨.pascalCase, none⟩

namespace Config

/-! ### What follows from a configuration -/

/-- Where definitions come from; exactly one source must be configured. -/
def inputSource (c : Config) : Except ConfigFault InputSource :=
  let hasModels := (c.input.bind (·.models)).isSome
  let hasLoader := (c.input.bind (·.loader)).isSome
  let hasConnection := (c.connection.getD "") ≠ ""
  if hasModels ∧ hasLoader then .error .modelsAndLoader
  else if (hasModels ∨ hasLoader) ∧ hasConnection then .error .inputAndConnection
  else if hasModels then .ok .direct
  else if hasLoader then .ok .loader
  else if hasConnection then .ok .database
  else .error .noSource

/-- The address of the database, with a reference to a variable expanded. -/
def connectionUrl (c : Config) (environment : Environment) : Except ConfigFault String :=
  match c.connection with
  | none => .error .noConnection
  | some connection =>
    if connection = "" then .error .noConnection
    else
      match environment.expand connection with
      | some url => if url = "" then .error (.unsetVariable connection) else .ok url
      | none => .error (.unsetVariable connection)

/-- The settings for names and translations. -/
def buildSettings (c : Config) (externalNames : List String) : BuildSettings :=
  ⟨c.naming.convention, c.naming.lead, c.translation.enabled, c.translation.pattern, externalNames⟩

/-- The generator of the client. -/
def clientGenerator (c : Config) : Generator :=
  { name := "client"
    provider := "prisma-client-js"
    output := c.output.clientPath
    options :=
      if c.output.previewFeatures.isEmpty then []
      else [("previewFeatures", Value.ofTexts c.output.previewFeatures)] }

/-- All generators, that of the client first. -/
def allGenerators (c : Config) : List Generator := c.clientGenerator :: c.generators

/-- A short text naming the file of the schema. -/
def summary (c : Config) : String :=
  "<GenerationConfig schema_path=" ++ displayText c.output.schemaPath ++ ">"

end Config

end ContentSchema
