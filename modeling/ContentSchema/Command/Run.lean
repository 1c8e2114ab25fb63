import ContentSchema.Command.Arguments
import ContentSchema.Command.Questions
import ContentSchema.Command.Report
import ContentSchema.Config.Reading
import ContentSchema.Definition.Check
import ContentSchema.Yaml.Writer

/-!
# Running commands

A command as a function of its surroundings: it shows a text, leaves files behind and ends.  Failures
that users are told about end it with a complaint and the exit code 1; what nobody expects ends it as
it is.
-/

namespace ContentSchema

/-- How a command ends. -/
inductive Ending where
  /-- With an exit code and a complaint, which is empty if there is none. -/
  | finished (code : Nat) (complaint : String)
  /-- Without having begun, as the command line asks for no command. -/
  | stopped (reason : Stop)
  /-- By a failure that is not expected. -/
  | broken (failure : Failure)
  /-- By the end of the input. -/
  | inputEnded

/-- What a command leaves behind. -/
structure Trace where
  /-- What it showed. -/
  shown : String
  /-- How it ended. -/
  ending : Ending
  /-- The files afterwards. -/
  files : FileSystem

namespace Command

/-- A complaint. -/
def complaint (reason : String) : String := "Error: " ++ reason ++ "\n"

/-- The end by a failure. -/
def endingOf (failure : Failure) : Ending :=
  if failure.isExpected then .finished 1 (complaint failure.message) else .broken failure

/-- The trace of a command that shows a text unless it fails, and leaves all files as they were. -/
def traceOf (s : Surroundings) (shown : Outcome (String × Nat)) : Trace :=
  match shown with
  | .ok (text, code) => ⟨text, .finished code "", s.files⟩
  | .error failure => ⟨"", endingOf failure, s.files⟩

/-- The names of the external tables of a configuration. -/
def externalNames (c : Config) (s : Surroundings) : List String :=
  (s.files.externalTables c.external).1.map (·.name)

/-- Generates and writes a schema. -/
def runGenerate (library : Library) (s : Surroundings) (config : String) : Trace :=
  match Config.load library s.files config with
  | .error failure => ⟨"", endingOf failure, s.files⟩
  | .ok c =>
    let (made, files) := c.write s
    match made.outcome with
    | .error failure => ⟨"", endingOf failure, files⟩
    | .ok (g, size) =>
      ⟨(g.summary (some (c.output.schemaPath, size))).text ++ "\n", .finished 0 "", files⟩

/-- Checks all definitions. -/
def validation (library : Library) (s : Surroundings) (config : String) : Outcome (String × Nat) := do
  let c ← Config.load library s.files config
  let raw ← (c.rawDefinitions s).outcome
  let report := checkDefinitions raw.models raw.components (externalNames c s)
  return (validationText config raw report, if report.isSound then 0 else 1)

/-- Counts what the definitions hold and lists their tables. -/
def analysis (library : Library) (s : Surroundings) (config : String) : Outcome (String × Nat) := do
  let c ← Config.load library s.files config
  let d ← (c.definitions s).outcome
  let compilation ← (c.compile d (externalNames c s)).outcome
  return (analysisText c d compilation.tables, 0)

/-- Writes a new configuration, whose answers are checked before. -/
def writeConfig (library : Library) (s : Surroundings) (p : Path) (shown : String) (a : Answers) :
    Trace :=
  match Config.ofEntries library a.toEntries with
  | .error failure => ⟨shown, endingOf failure, s.files⟩
  | .ok _ =>
    match s.files.write p (String.ofList (Yaml.write (.object a.toEntries))) with
    | (.error fault, files) => ⟨shown, endingOf (.file fault), files⟩
    | (.ok _, files) => ⟨shown ++ "Created " ++ p.text ++ "\n", .finished 0 "", files⟩

/-- Asks for a new configuration, unless every default is accepted, and writes it. -/
def runInit (library : Library) (s : Surroundings) (input : List Char) (output : String)
    (assumeYes force : Bool) : Trace :=
  let p := Path.ofText output
  if s.files.has p && !force then
    let reason := p.text ++ " already exists (use --force to overwrite)."
    ⟨"", .finished 1 (complaint reason), s.files⟩
  else if assumeYes then writeConfig library s p "" .standard
  else
    match Answers.ask ⟨"", input⟩ with
    | (.ok a, talk) => writeConfig library s p talk.shown a
    | (.error _, talk) => ⟨talk.shown, .inputEnded, s.files⟩

/-- Runs a command. -/
def run (library : Library) (s : Surroundings) (input : List Char) : Command → Trace
  | generate config => runGenerate library s config
  | init output assumeYes force => runInit library s input output assumeYes force
  | validate config => traceOf s (validation library s config)
  | analyze config => traceOf s (analysis library s config)

/-! ### What a command looks at -/

/-- The configuration that a command takes, if it can be loaded. -/
def configOf? (library : Library) (files : FileSystem) : Command → Option Config
  | generate config | validate config | analyze config =>
    (Config.load library files config).toOption
  | init .. => none

/-- The paths that a command looks at. -/
def paths (library : Library) (files : FileSystem) (command : Command) : List Path :=
  let named := match command with
    | generate path | validate path | analyze path | init path .. => path
  let configured := match command.configOf? library files with
    | some c => c.output.schemaPath :: ((c.external.map (·.paths)).getD [])
    | none => []
  (named :: configured).map Path.ofText

/-- The variables that a command looks up. -/
def variableNames (library : Library) (files : FileSystem) (command : Command) : List String :=
  (((command.configOf? library files).bind (·.connection)).bind Environment.reference?).toList

/-- Runs the command that a command line spells. -/
def runArguments (library : Library) (s : Surroundings) (input : List Char)
    (arguments : List String) : Trace :=
  match ofArguments arguments with
  | .ok command => command.run library s input
  | .error stop => ⟨stop.shown, .stopped stop, s.files⟩

end Command

end ContentSchema
