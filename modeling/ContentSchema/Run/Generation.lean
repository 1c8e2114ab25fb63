import ContentSchema.Compilation.Merge
import ContentSchema.Run.Definitions
import ContentSchema.Run.Summary
import ContentSchema.Schema.Size

/-!
# Generating a schema

A whole run: external tables, definitions, their compilation, the merge of both and the text of the
schema.  What is tolerated on the way becomes a warning; anything else stops the run.
-/

namespace ContentSchema

/-- What a run makes. -/
structure Generation where
  /-- The text of the schema. -/
  schema : List Char
  /-- The slugs of the models. -/
  models : List String
  /-- The warnings in order. -/
  warnings : List Warning
  /-- The tables, external ones first. -/
  tables : List Table
  /-- What each step made. -/
  steps : List Step

namespace Generation

/-- The names of the tables. -/
def tableNames (g : Generation) : List String := g.tables.map (·.name)

/-- The summary of a run, with the file and its size if the schema was written. -/
def summary (g : Generation) (written : Option (String × Nat)) : Summary where
  models := g.models.length
  tables := g.tables.length
  path := written.map (·.1)
  bytes := (written.map (·.2)).getD 0
  seconds := noTime
  steps := g.steps
  warnings := g.warnings.map (·.message)

end Generation

namespace Config

/-- A step that went well. -/
def step (name detail : String) : Step := ⟨name, true, noTime, detail⟩

/-- A number of things. -/
def counted (n : Nat) (thing : String) : String := toString n ++ " " ++ thing ++ "(s)"

/-- Compiles definitions. -/
def compile (c : Config) (d : Definitions) (externalNames : List String) : Staged Compilation := do
  let settings := c.buildSettings externalNames
  Staged.enter .compilingModels
  let own ← Staged.compiled (compileOwn d.models d.components settings)
  Staged.enter .emittingDerived
  let additions ← Staged.compiled (compileAdditions d.models d.components settings)
  return .ofParts d.models own additions

/-- The text of a schema, if each of its numbers can be written. -/
def schemaText (schema : Schema) : Outcome (List Char) :=
  if schema.holdsOversized then .error (.slip .oversizedNumber) else .ok schema.print

/-- A run up to its result. -/
def run (c : Config) (s : Surroundings) : Staged Generation := do
  -- a configuration without a source fails before the first stage
  let _ ← Staged.configured c.inputSource
  Staged.enter .loadingExternal
  let (external, externalWarnings) := s.files.externalTables c.external
  let found ← c.definitions s
  let compilation ← c.compile found (external.map (·.name))
  let (tables, collisions) := mergeTables external compilation.tables
  Staged.enter .serializing
  let text ← Staged.ofOutcome (schemaText ⟨c.output.datasource, c.allGenerators, tables⟩)
  return {
    schema := text
    models := found.models.map (·.slug)
    warnings := externalWarnings ++ found.warnings ++ compilation.warnings ++
      collisions.map .collision
    tables := tables
    steps := [
      step "Load External Models" (counted external.length "table"),
      step "Read Definitions" (counted found.models.length "model" ++ ", " ++
        counted found.components.length "component"),
      step "Compile Models" (counted found.models.length "model"),
      step "Emit Derived Tables" (counted compilation.derivedCount "table"),
      step "Serialize" (groupedText text.length ++ " chars")] }

/-- A whole run. -/
def generate (c : Config) (s : Surroundings) : Staged Generation := (c.run s).finish

/-- A whole run whose schema is written to its file: what it makes with the size of the file, and
the files afterwards. -/
def write (c : Config) (s : Surroundings) : Staged (Generation × Nat) × FileSystem :=
  let made := c.generate s
  match made.outcome with
  | .error failure => (⟨made.entered, .error failure⟩, s.files)
  | .ok g =>
    let (size, files) := s.files.write (.ofText c.output.schemaPath) (String.ofList g.schema)
    (⟨made.entered, (size.mapError .file).map fun n => (g, n)⟩, files)

end Config

end ContentSchema
