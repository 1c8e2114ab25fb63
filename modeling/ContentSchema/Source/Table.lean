import ContentSchema.Definition.Dump
import ContentSchema.Definition.Validation
import ContentSchema.Hook.Basic
import ContentSchema.Source.Rows

/-!
# Tables of stored definitions

A table of models or components: its rows become raw definitions, either by a mapper or by decoding
the column that holds them, and raw definitions are validated.  One definition can be looked up
without reading the rows behind it.
-/

namespace ContentSchema

/-- A valid definition. -/
inductive Definition where
  /-- A model. -/
  | model (m : ContentModel)
  /-- A component. -/
  | component (c : Component)

namespace Definition

/-- Reads a valid definition of a kind. -/
def validate (kind : DefinitionKind) (raw : Value) : Except InvalidDefinition Definition :=
  match kind with
  | .model => model <$> ContentModel.validate raw
  | .component => component <$> Component.validate raw

/-- A definition as a value. -/
def toValue : Definition → Value
  | model m => m.toValue
  | component c => c.toValue

end Definition

/-- The part of a configuration that names the mapper of a kind. -/
def DefinitionKind.mapperRole (kind : DefinitionKind) : String := "mapper." ++ kind.name

/-- The raw definition that a row holds: what the mapper makes of the row, or what is decoded from
it if there is no mapper. -/
def Row.rawDefinition (mapper : Option Hook) (kind : DefinitionKind) (row : Value) :
    Outcome Value :=
  match mapper with
  | none => decode row
  | some mapper => mapper.run kind.mapperRole (.ofText? <$> text? "slug" row) (some row)

/-- A table of stored definitions. -/
structure DefinitionTable where
  /-- What gives the rows. -/
  source : RowSource
  /-- The name of the table. -/
  name : String
  /-- What turns rows into raw definitions. -/
  mapper : Option Hook
  /-- What the definitions are. -/
  kind : DefinitionKind

namespace DefinitionTable

/-- The rows of the table. -/
def rows (t : DefinitionTable) : Outcome (List Value) := t.source.rows t.name

/-- The raw definition that a row holds. -/
def rawOf (t : DefinitionTable) (row : Value) : Outcome Value :=
  Row.rawDefinition t.mapper t.kind row

/-- All raw definitions in the order of the rows. -/
def rawDefinitions (t : DefinitionTable) : Outcome (List Value) := do
  (← t.rows).mapM t.rawOf

/-- The valid definition that a raw one spells. -/
def validate (t : DefinitionTable) (raw : Value) : Outcome Definition :=
  (Definition.validate t.kind raw).mapError .definition

/-- All definitions: every row becomes a raw definition before the first one is validated. -/
def definitions (t : DefinitionTable) : Outcome (List Definition) := do
  (← t.rawDefinitions).mapM t.validate

/-- The definition in the first of some rows with a slug. -/
def definitionIn (t : DefinitionTable) (slug : String) : List Value → Outcome (Option Definition)
  | [] => return none
  | row :: rest => do
    if (← Row.text? "slug" row) = some slug then
      return some (← t.validate (← t.rawOf row))
    else definitionIn t slug rest

/-- The definition in the first row with a slug. -/
def definition? (t : DefinitionTable) (slug : String) : Outcome (Option Definition) := do
  t.definitionIn slug (← t.rows)

/-- A short text naming the kind and the table. -/
def summary (t : DefinitionTable) : String :=
  "<EAVReader kind=" ++ displayText t.kind.name ++ " table=" ++ displayText t.name ++ ">"

end DefinitionTable

end ContentSchema
