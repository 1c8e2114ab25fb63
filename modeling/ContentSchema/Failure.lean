import ContentSchema.Compilation.Field
import ContentSchema.Definition.Validation
import ContentSchema.Files.Document
import ContentSchema.Value.Display

/-!
# Failures

Everything that can stop a run, as causes with one wording.  Most failures are expected: the
configuration, the definitions, what they are read from or the hooks of a user are at fault.  The
others are slips of a value that is not of the kind that its reader takes for granted, paths that no
file can have, and errors of code that is not part of a run.  Such code may also give up the run as
a whole, which the run itself takes no note of.
-/

namespace ContentSchema

/-- What is wrong with a configuration. -/
inductive ConfigFault where
  /-- Definitions are given directly and by a loader. -/
  | modelsAndLoader
  /-- Definitions are given and also stored behind a connection. -/
  | inputAndConnection
  /-- No definitions are given. -/
  | noSource
  /-- There is no connection. -/
  | noConnection
  /-- The variable that the connection refers to is not set. -/
  | unsetVariable (connection : String)
  /-- A loader gives something else than definitions. -/
  | badLoaderResult
  /-- The configuration breaks rules. -/
  | invalid (issues : List Issue)
  /-- There is no file with the configuration. -/
  | missingFile (path : Path)
  /-- The file holds no configuration. -/
  | unreadable (fault : DocumentFault)
  /-- A hook refuses to go on. -/
  | refused (reason : String)
deriving Repr

/-- The line about an issue of a configuration. -/
def Issue.configLine (i : Issue) : String :=
  let place := if i.pathText = "" then "<root>" else i.pathText
  "  " ++ place ++ ": " ++ i.fault.markedMessage

/-- The message about a configuration. -/
def ConfigFault.message : ConfigFault → String
  | modelsAndLoader => "input.models and input.loader are mutually exclusive"
  | inputAndConnection => "Configure either 'input' or 'connection', not both"
  | noSource =>
    "No input source configured: set 'connection' (with 'tables'), 'input.models' or 'input.loader'"
  | noConnection => "No 'connection' configured"
  | unsetVariable connection => "Environment variable for " ++ connection ++ " is not set"
  | badLoaderResult => "input.loader must return a mapping with a 'models' key"
  | invalid issues =>
    "Invalid configuration:\n" ++ String.intercalate "\n" (issues.map Issue.configLine)
  | missingFile path => "Config file not found: " ++ path.text
  | unreadable fault => fault.message
  | refused reason => reason

/-- Why the text of a stored definition gives no definition. -/
inductive PayloadFault where
  /-- There is no text. -/
  | missing
  /-- It is no text. -/
  | notText (kind : String)
  /-- The text cannot be read. -/
  | unreadable (reason : String)
  /-- The text spells something that no value expresses. -/
  | inexpressible
deriving DecidableEq, Repr

/-- The words for a fault of a stored definition. -/
def PayloadFault.message : PayloadFault → String
  | missing => "missing \"definition\" column"
  | notText kind => "the JSON object must be str, bytes or bytearray, not " ++ kind
  | unreadable reason => reason
  | inexpressible => inexpressibleMessage

/-- A value that is not of the kind that its reader takes for granted. -/
inductive Slip where
  /-- Something else than a collection where the members of one are wanted. -/
  | notCollection (kind : String)
  /-- Something else than a row. -/
  | notRow (kind : String)
  /-- A connection to a kind of database for which nothing is installed. -/
  | missingDriver (name : String)
  /-- Something else than a number in the address of a database. -/
  | badNumber (reason : String)
  /-- A reference to a module that is relative to no other one. -/
  | relativeModule (name : String)
  /-- A reference to a module that breaks off while it is loaded. -/
  | brokenModule (kind reason : String)
  /-- A whole number with more digits than can be written. -/
  | oversizedNumber
  /-- A scalar of a configuration that is not what its tag says. -/
  | mistagged (scalar : Yaml.Mistagged)
  /-- Something in a document that no value expresses, or options in the address of a database. -/
  | inexpressible
deriving DecidableEq, Repr

/-- The message about a slip. -/
def Slip.message : Slip → String
  | notCollection kind => "'" ++ kind ++ "' object is not iterable"
  | notRow kind => "'" ++ kind ++ "' object has no attribute 'get'"
  | missingDriver name => "No module named " ++ displayText name
  | relativeModule name =>
    "the 'package' argument is required to perform a relative import for " ++ displayText name
  | badNumber reason | brokenModule _ reason => reason
  | oversizedNumber => digitWriteLimitMessage
  | .mistagged scalar => scalar.message
  | inexpressible => inexpressibleMessage

/-- What stops a run. -/
inductive Failure where
  /-- The configuration is at fault. -/
  | config (fault : ConfigFault)
  /-- A definition is not valid. -/
  | definition (invalid : InvalidDefinition)
  /-- The text of a stored definition cannot be read. -/
  | payload (slug id : Option String) (fault : PayloadFault)
  /-- Rows cannot be read. -/
  | source (reason : String)
  /-- A hook fails with an error of its own. -/
  | hook (role : String) (item : Value) (kind reason : String)
  /-- A definition cannot be compiled. -/
  | compile (error : CompileError)
  /-- A file cannot be written. -/
  | file (fault : FileFault)
  /-- A value is not of the kind that its reader takes for granted. -/
  | slip (found : Slip)
  /-- A source of rows fails with an error of its own. -/
  | foreign (kind reason : String)
  /-- The run is given up: it is cancelled, or a hook or a source of rows ends the whole program. -/
  | abandoned (kind reason : String)

namespace Failure

/-- The message about a failure. -/
def message : Failure → String
  | config fault => fault.message
  | definition invalid => invalid.message
  | payload slug id fault =>
    "Invalid JSON in definition \"" ++ (Value.ofText? slug).display ++ "\" (id: " ++
      (Value.ofText? id).display ++ "): " ++ fault.message
  | source reason => reason
  | .hook role item kind reason =>
    let target := if item.isTruthy then " for \"" ++ item.display ++ "\"" else ""
    role ++ " hook failed" ++ target ++ ": " ++ kind ++ ": " ++ reason
  | compile error => error.message
  | file fault => fault.message
  | .slip found => found.message
  | foreign _ reason | abandoned _ reason => reason

/-- Whether a failure is one that users are told about in words. -/
def isExpected : Failure → Bool
  | slip _ | compile (.rejected _) | file ⟨.nullByte, _⟩ | foreign .. | abandoned .. => false
  | _ => true

/-- Whether a run takes note of a failure: it does unless it is given up. -/
def isNoticed : Failure → Bool
  | abandoned .. => false
  | _ => true

end Failure

/-- A result of a step of a run. -/
abbrev Outcome (α : Type) := Except Failure α

end ContentSchema
