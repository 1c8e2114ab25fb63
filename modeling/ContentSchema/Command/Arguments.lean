import ContentSchema.Command.Switches

/-!
# Commands

The commands of the program and how a command line spells them: switches for the program as a whole,
the name of a command, and switches for that command.
-/

namespace ContentSchema

/-- What a switch is about. -/
inductive Setting where
  | help | version | verbose | quiet | config | output | yes | force
deriving DecidableEq, Repr

/-- A command. -/
inductive Command where
  /-- Write the schema that a configuration asks for. -/
  | generate (config : String)
  /-- Write a configuration. -/
  | init (output : String) (assumeYes force : Bool)
  /-- Check all definitions. -/
  | validate (config : String)
  /-- Count what the definitions hold and list the tables that they become. -/
  | analyze (config : String)
deriving DecidableEq, Repr

/-- Why there is no command to run. -/
inductive Stop where
  /-- The command line is wrong. -/
  | misuse
  /-- Help is wanted. -/
  | help
  /-- The version is wanted. -/
  | version
deriving DecidableEq, Repr

/-- The exit code of a program that stops. -/
def Stop.exitCode : Stop → Nat
  | misuse => 2
  | help | version => 0

/-- What is shown when the version is wanted. -/
def versionText : String := "EAVGen v0.1.0\n"

/-- What is shown by a program that stops. -/
def Stop.shown : Stop → String
  | version => versionText
  | misuse | help => ""

namespace Command

/-- The file of a configuration unless another one is named. -/
def defaultConfigFile : String := "eavgen.config.yaml"

/-- The switch for help. -/
def helpSwitch : Switch Setting := ⟨.help, ["-h", "--help"], false⟩

/-- The switches for the program as a whole. -/
def programSwitches : List (Switch Setting) := [
  helpSwitch, ⟨.version, ["--version"], false⟩, ⟨.verbose, ["-v", "--verbose"], false⟩,
  ⟨.quiet, ["-q", "--quiet"], false⟩]

/-- The switches for commands that take a configuration. -/
def configSwitches : List (Switch Setting) := [helpSwitch, ⟨.config, ["-c", "--config"], true⟩]

/-- The switches for the command that writes a configuration. -/
def initSwitches : List (Switch Setting) := [
  helpSwitch, ⟨.output, ["-o", "--output"], true⟩, ⟨.yes, ["-y", "--yes"], false⟩,
  ⟨.force, ["--force"], false⟩]

/-- The switches that were used, unless something stops the program. -/
def usesOf (events : List (Event Setting)) : Except Stop (List (Setting × Option String)) := do
  let uses ← events.mapM fun
    | .fault => .error .misuse
    | .use .help _ => .error .help
    | .use .version _ => .error .version
    | .use key value => .ok (some (key, value))
    | .leftover => .ok none
  if uses.all Option.isSome then return uses.filterMap id else throw .misuse

/-- Whether a switch was used. -/
def uses (found : List (Setting × Option String)) (key : Setting) : Bool :=
  found.any fun u => u.1 == key

/-- The value that was given last. -/
def lastValue (found : List (Setting × Option String)) (key : Setting) (default : String) : String :=
  ((found.reverse.find? fun u => u.1 == key).bind (·.2)).getD default

/-- The switches of the command with a name, and what they make of it. -/
def named? (name : String) :
    Option (List (Switch Setting) × (List (Setting × Option String) → Command)) :=
  let withConfig (make : String → Command) :=
    some (configSwitches, fun found => make (lastValue found .config defaultConfigFile))
  match name with
  | "generate" => withConfig generate
  | "validate" => withConfig validate
  | "analyze" => withConfig analyze
  | "init" =>
    some (initSwitches, fun found =>
      init (lastValue found .output defaultConfigFile) (uses found .yes) (uses found .force))
  | _ => none

/-- The command that a command line spells. -/
def ofArguments (arguments : List String) : Except Stop Command :=
  let (events, rest) := Switch.scan programSwitches true arguments
  match rest with
  | [] => do
    -- help and the version are shown without a command, too
    let _ ← usesOf events
    throw .misuse
  | name :: rest =>
    match named? name with
    | none => do
      let _ ← usesOf events
      throw .misuse
    | some (switches, make) => make <$> usesOf (events ++ (Switch.scan switches false rest).1)

end Command

end ContentSchema
