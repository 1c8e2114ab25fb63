import ContentSchema.Config.Basic
import ContentSchema.Schema.Reading

/-!
# Configurations as values

A configuration with all its parts spelled out, defaults included.  A hook is shown by its name.
-/

namespace ContentSchema

/-- A hook as a value. -/
def Hook.toValue? : Option Hook → Value
  | some h => .object [("hook", .text h.name)]
  | none => .null

/-- A list that may be missing as a value. -/
def Value.ofList? : Option (List Value) → Value
  | some items => .list items
  | none => .null

/-- Texts that may be missing as a value. -/
def Value.ofTexts? (items : Option (List String)) : Value := Value.ofList? (items.map (·.map .text))

/-- Paths as a value. -/
def Paths.toValue : Paths → Value
  | one path => .text path
  | many paths => .ofTexts paths

/-- Where external tables are declared as a value. -/
def ExternalTables.toValue : ExternalTables → Value
  | all paths => paths.toValue
  | filtered paths taken leftOut => .object [
    ("path", paths.toValue), ("include", .ofTexts? taken), ("exclude", .ofTexts? leftOut)]

namespace Config

/-- A configuration as a value. -/
def toValue (c : Config) : Value := .object [
  ("connection", .ofText? c.connection),
  ("input", match c.input with
    | none => .null
    | some i => .object [
      ("models", .ofList? i.models), ("components", .ofList? i.components),
      ("loader", Hook.toValue? i.loader)]),
  ("tables", .object [
    ("models", .text c.tables.models), ("components", .ofText? c.tables.components)]),
  ("mapper", .object [
    ("model", Hook.toValue? c.mapper.model), ("component", Hook.toValue? c.mapper.component)]),
  ("external_models", (c.external.map (·.toValue)).getD .null),
  ("output", .object [
    ("schema_path", .text c.output.schemaPath), ("client_path", .ofText? c.output.clientPath),
    ("client", .object [("preview_features", .ofTexts c.output.previewFeatures)]),
    ("datasource", c.output.datasource.toValue)]),
  ("i18n", .object [
    ("enabled", .bool c.translation.enabled), ("table_naming", .text c.translation.pattern),
    ("default_lang", .text c.translation.language)]),
  ("naming", .object [
    ("convention", .text c.naming.convention.name), ("prefix", .ofText? c.naming.lead)]),
  ("generators", .list (c.generators.map (·.toValue)))]

end Config

end ContentSchema
