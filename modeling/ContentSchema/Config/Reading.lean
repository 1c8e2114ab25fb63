import ContentSchema.Config.Basic
import ContentSchema.Hook.Library
import ContentSchema.Schema.Reading

/-!
# Reading configurations

A configuration from the object that spells it.  Keys may be written in either spelling; a key that
no section knows is refused.  Hooks are looked up in a library on the way.
-/

namespace ContentSchema

open Record

/-- Reads one path or a list of them. -/
def Paths.read : Reader Paths :=
  Reader.either "str" (fun v => Paths.one <$> Reader.text v) "list[str]"
    (fun v => Paths.many <$> Reader.list Reader.text v)

namespace ExternalTables

/-- Reads the filtered form. -/
def readFiltered : Reader ExternalTables := object "ExternalModelsConfig" fun entries =>
  (fun paths taken leftOut (_ : Unit) => ExternalTables.filtered paths taken leftOut)
    <$> required (.plain "path") Paths.read entries
    <*> optionally (.plain "include") (Reader.list Reader.text) entries
    <*> optionally (.plain "exclude") (Reader.list Reader.text) entries
    <*> refuseUnknown (["path", "include", "exclude"].map .plain) entries

/-- Reads either form. -/
def read : Reader ExternalTables := fun v =>
  match Paths.read v, (readFiltered v).within "ExternalModelsConfig" with
  | .accepted paths, _ => .accepted (.all paths)
  | .rejected _, .accepted source => .accepted source
  | .rejected issues, .rejected more => .rejected (issues ++ more)

end ExternalTables

namespace Config

/-- Reads the definitions that are given. -/
def readInput (library : Library) : Reader InputSection := object "InputConfig" fun entries =>
  (fun models components loader (_ : Unit) => InputSection.mk models components loader)
    <$> optionally (.plain "models") (Reader.list Reader.any) entries
    <*> optionally (.plain "components") (Reader.list Reader.any) entries
    <*> defaulted (.plain "loader") none library.readHook entries
    <*> refuseUnknown (["models", "components", "loader"].map .plain) entries

/-- Reads where stored definitions are. -/
def readTables : Reader TablesSection := object "TablesConfig" fun entries =>
  (fun models components (_ : Unit) => TablesSection.mk models components)
    <$> defaulted (.plain "models") TablesSection.standard.models Reader.text entries
    <*> optionally (.plain "components") Reader.text entries
    <*> refuseUnknown (["models", "components"].map .plain) entries

/-- Reads the mappers. -/
def readMapper (library : Library) : Reader MapperSection := object "MapperConfig" fun entries =>
  (fun model component (_ : Unit) => MapperSection.mk model component)
    <$> defaulted (.plain "model") none library.readHook entries
    <*> defaulted (.plain "component") none library.readHook entries
    <*> refuseUnknown (["model", "component"].map .plain) entries

/-- Reads where the data live. -/
def readDatasource : Reader Datasource := object "DatasourceConfig" fun entries =>
  (fun provider url directUrl (_ : Unit) => Datasource.mk provider url directUrl)
    <$> defaulted (.plain "provider") Datasource.standard.provider
      (Reader.oneOf Provider.all Provider.name) entries
    <*> defaulted (.plain "url") defaultUrl Reader.text entries
    <*> optionally ⟨"directUrl", "direct_url"⟩ Reader.text entries
    <*> refuseUnknown [.plain "provider", .plain "url", ⟨"directUrl", "direct_url"⟩] entries

/-- Reads the features of the client. -/
def readClient : Reader (List String) := object "ClientConfig" fun entries =>
  (fun features (_ : Unit) => features)
    <$> defaulted ⟨"previewFeatures", "preview_features"⟩ [] (Reader.list Reader.text) entries
    <*> refuseUnknown [⟨"previewFeatures", "preview_features"⟩] entries

/-- The keys of the output. -/
def outputKeys : List Key := [
  ⟨"schemaPath", "schema_path"⟩, ⟨"clientPath", "client_path"⟩, .plain "client",
  .plain "datasource"]

/-- Reads where the schema goes. -/
def readOutput : Reader OutputSection := object "OutputConfig" fun entries =>
  (fun path clientPath features datasource (_ : Unit) =>
      OutputSection.mk path clientPath features datasource)
    <$> defaulted ⟨"schemaPath", "schema_path"⟩ defaultSchemaPath Reader.text entries
    <*> optionally ⟨"clientPath", "client_path"⟩ Reader.text entries
    <*> defaulted (.plain "client") [] readClient entries
    <*> defaulted (.plain "datasource") .standard readDatasource entries
    <*> refuseUnknown outputKeys entries

/-- The keys of translations. -/
def translationKeys : List Key := [
  .plain "enabled", ⟨"tableNaming", "table_naming"⟩, ⟨"defaultLang", "default_lang"⟩]

/-- Reads how translations are made. -/
def readTranslation : Reader TranslationSection := object "I18nConfig" fun entries =>
  (fun enabled pattern language (_ : Unit) => TranslationSection.mk enabled pattern language)
    <$> defaulted (.plain "enabled") TranslationSection.standard.enabled Reader.bool entries
    <*> defaulted ⟨"tableNaming", "table_naming"⟩ TranslationSection.standard.pattern Reader.text
      entries
    <*> defaulted ⟨"defaultLang", "default_lang"⟩ TranslationSection.standard.language Reader.text
      entries
    <*> refuseUnknown translationKeys entries

/-- Reads how tables are named. -/
def readNaming : Reader NamingSection := object "NamingConfig" fun entries =>
  (fun convention lead (_ : Unit) => NamingSection.mk convention lead)
    <$> defaulted (.plain "convention") NamingSection.standard.convention
      (Reader.oneOf Convention.all Convention.name) entries
    <*> optionally (.plain "prefix") Reader.text entries
    <*> refuseUnknown (["convention", "prefix"].map .plain) entries

/-- Reads a generator. -/
def readGenerator : Reader Generator := object "GeneratorConfig" fun entries =>
  (fun name provider output options (_ : Unit) => Generator.mk name provider output options)
    <$> required (.plain "name") Reader.nonEmptyText entries
    <*> required (.plain "provider") Reader.nonEmptyText entries
    <*> optionally (.plain "output") Reader.text entries
    <*> defaulted (.plain "config") [] Reader.entries entries
    <*> refuseUnknown (["name", "provider", "output", "config"].map .plain) entries

/-- The keys of a configuration. -/
def keys : List Key := [
  .plain "connection", .plain "input", .plain "tables", .plain "mapper",
  ⟨"externalModels", "external_models"⟩, .plain "output", ⟨"i18N", "i18n"⟩, .plain "naming",
  .plain "generators"]

/-- Reads a configuration. -/
def read (library : Library) : Reader Config := object "GenerationConfig" fun entries =>
  (fun connection input tables mapper external output translation naming generators (_ : Unit) =>
      Config.mk connection input tables mapper external output translation naming generators)
    <$> optionally (.plain "connection") Reader.text entries
    <*> optionally (.plain "input") (readInput library) entries
    <*> defaulted (.plain "tables") .standard readTables entries
    <*> defaulted (.plain "mapper") .none (readMapper library) entries
    <*> optionally ⟨"externalModels", "external_models"⟩ ExternalTables.read entries
    <*> defaulted (.plain "output") .standard readOutput entries
    <*> defaulted ⟨"i18N", "i18n"⟩ .standard readTranslation entries
    <*> defaulted (.plain "naming") .standard readNaming entries
    <*> defaulted (.plain "generators") [] (Reader.list readGenerator) entries
    <*> refuseUnknown keys entries

/-- The references to hooks in a configuration, in the order in which they are followed. -/
def hookReferences (entries : Entries) : List String :=
  [("input", "loader"), ("mapper", "model"), ("mapper", "component")].filterMap fun place =>
    ((Entries.find? entries place.1).bind (Value.get? place.2)).bind Value.asText?

/-- The slips behind the references to hooks in a configuration. -/
def hookSlips (library : Library) (entries : Entries) : List Slip :=
  (hookReferences entries).filterMap fun reference =>
    match library.resolve reference with
    | .error fault => fault.slip?
    | .ok _ => none

/-- The configuration that an object spells.  A reference to a module that is relative to no other
one, or breaks off, stops the reading at once. -/
def ofEntries (library : Library) (entries : Entries) : Outcome Config :=
  match hookSlips library entries with
  | found :: _ => .error (.slip found)
  | [] =>
    match read library (.object entries) with
    | .accepted c => .ok c
    | .rejected issues => .error (.config (.invalid issues))

/-- The configuration in a file. -/
def load (library : Library) (fs : FileSystem) (path : String) : Outcome Config :=
  let p := Path.ofText path
  match fs.readObject p with
  | .ok entries => ofEntries library entries
  | .error (.missing _) => .error (.config (.missingFile p))
  | .error (.mistagged scalar) => .error (.slip (.mistagged scalar))
  | .error .inexpressible => .error (.slip .inexpressible)
  | .error fault => .error (.config (.unreadable fault))

end Config

end ContentSchema
