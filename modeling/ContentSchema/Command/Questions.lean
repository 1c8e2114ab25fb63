import ContentSchema.Config.Basic
import ContentSchema.Text.Blank
import ContentSchema.Text.Case

/-!
# Questions about a new configuration

A dialogue shows questions and takes a line of input for each.  An empty answer stands for the
default that the question shows.
-/

namespace ContentSchema

/-- How far a dialogue has come. -/
structure Talk where
  /-- What has been shown. -/
  shown : String
  /-- The input that is left. -/
  input : List Char

/-- The input ends while an answer is wanted. -/
structure InputEnded where
deriving DecidableEq, Repr

/-- A dialogue. -/
abbrev Dialogue (α : Type) := Talk → Except InputEnded α × Talk

namespace Dialogue

variable {α β : Type}

/-- Goes on with an answer. -/
def bind (x : Dialogue α) (next : α → Dialogue β) : Dialogue β := fun t =>
  match x t with
  | (.ok a, t) => next a t
  | (.error e, t) => (.error e, t)

instance : Monad Dialogue where
  pure a := fun t => (.ok a, t)
  bind := bind

/-- Shows a text and takes a line of input. -/
def prompt (text : String) : Dialogue (List Char) := fun t =>
  let shown := t.shown ++ text
  if t.input.isEmpty then (.error ⟨⟩, ⟨shown, []⟩)
  else
    let line := t.input.takeWhile (· ≠ '\n')
    (.ok line, ⟨shown, t.input.drop (line.length + 1)⟩)

/-- Asks a question that has a default. -/
def ask (question default : String) : Dialogue String := do
  let line ← prompt (question ++ " [" ++ default ++ "]: ")
  let answer := String.ofList (Text.strip line)
  return if answer = "" then default else answer

end Dialogue

/-- Whether an answer agrees. -/
def isYes (answer : String) : Bool :=
  ["y", "yes", "true", "1"].contains (String.ofList (Text.lower answer.toList))

/-- What a new configuration is made of. -/
structure Answers where
  /-- The address of the database. -/
  connection : String
  /-- The table of models. -/
  models : String
  /-- The table of components; empty for none. -/
  components : String
  /-- The file of the schema. -/
  schemaPath : String
  /-- The kind of database that the schema is for. -/
  provider : String
  /-- How names are built. -/
  convention : String
  /-- Whether translations are made. -/
  translated : Bool
deriving DecidableEq, Repr

namespace Answers

/-- The answers of those who accept every default. -/
def standard : Answers where
  connection := "sqlite:///./content.db"
  models := TablesSection.standard.models
  components := ""
  schemaPath := defaultSchemaPath
  provider := Datasource.standard.provider.name
  convention := NamingSection.standard.convention.name
  translated := TranslationSection.standard.enabled

/-- Names to choose from. -/
def choices {α : Type} (members : List α) (name : α → String) : String :=
  " (" ++ String.intercalate "/" (members.map name) ++ ")"

/-- Asks for all that a new configuration is made of. -/
def ask : Dialogue Answers := do
  let connection ← Dialogue.ask "Database URL of the EAV tables" standard.connection
  let models ← Dialogue.ask "Table holding model definitions" standard.models
  let components ←
    Dialogue.ask "Table holding component definitions (blank for none)" standard.components
  let schemaPath ← Dialogue.ask "Schema output path" standard.schemaPath
  let provider ← Dialogue.ask ("Datasource provider" ++ choices Provider.all Provider.name)
    standard.provider
  let convention ← Dialogue.ask ("Naming convention" ++ choices Convention.all Convention.name)
    standard.convention
  let translated ← Dialogue.ask "Enable translation tables (y/n)"
    (if standard.translated then "y" else "n")
  return ⟨connection, models, components, schemaPath, provider, convention, isYes translated⟩

/-- The answers that spell a new configuration. -/
def toEntries (a : Answers) : Entries := [
  ("connection", .text a.connection),
  ("tables", .object ([("models", .text a.models)] ++
    if a.components = "" then [] else [("components", .text a.components)])),
  ("output", .object [
    ("schemaPath", .text a.schemaPath),
    ("datasource", .object [("provider", .text a.provider), ("url", .text defaultUrl)])]),
  ("i18n", .object [("enabled", .bool a.translated)]),
  ("naming", .object [("convention", .text a.convention)])]

end Answers

end ContentSchema
