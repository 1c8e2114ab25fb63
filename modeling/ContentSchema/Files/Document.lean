import ContentSchema.Files.System
import ContentSchema.Json.Reader
import ContentSchema.Text.Case
import ContentSchema.Yaml.Reader

/-!
# Documents in files

A file that holds one object, as JSON or as YAML, which the end of its name tells.  Where the name
does not tell, it is read as JSON and then as YAML.
-/

namespace ContentSchema

/-- Why a file holds no object. -/
inductive DocumentFault where
  /-- There is no file. -/
  | missing (path : Path)
  /-- It is no file. -/
  | notFile (path : Path)
  /-- It is no JSON. -/
  | invalidJson (path : Path) (reason : String)
  /-- It is no YAML. -/
  | invalidYaml (path : Path)
  /-- It is JSON of something else. -/
  | notObject (kind : String)
  /-- It is YAML of something else. -/
  | notMapping (kind : String)
  /-- It holds something that cannot be taken in. -/
  | unreadable (reason : String)
  /-- A scalar is not what its tag says. -/
  | mistagged (scalar : Yaml.Mistagged)
  /-- It holds something that no value expresses. -/
  | inexpressible
deriving DecidableEq, Repr

/-- The message about a document with something that no value expresses. -/
def inexpressibleMessage : String := "the document holds what no value expresses"

/-- The message about a scalar that is not what its tag says. -/
def Yaml.Mistagged.message : Yaml.Mistagged → String
  | bool text => displayText text
  | number => "string index out of range"
  | stamp => "'NoneType' object has no attribute 'groupdict'"

namespace DocumentFault

/-- The message about a file without an object. -/
def message : DocumentFault → String
  | missing path => "File not found: " ++ path.text
  | notFile path => "Path is not a file: " ++ path.text
  | invalidJson path reason => "Invalid JSON in " ++ path.text ++ ": " ++ reason
  | invalidYaml path => "Invalid YAML in " ++ path.text
  | notObject kind => "Expected a JSON object at top level, got " ++ kind ++ "."
  | notMapping kind => "Expected a YAML mapping at top level, got " ++ kind ++ "."
  | unreadable reason => reason
  | .mistagged scalar => scalar.message
  | inexpressible => inexpressibleMessage

end DocumentFault

namespace FileSystem

/-- The text of a file that a document should be in. -/
def documentText (fs : FileSystem) (p : Path) : Except DocumentFault (List Char) :=
  (fs.readText p).mapError fun fault => .unreadable fault.message

/-- Reads the object in a JSON file. -/
def readJsonObject (fs : FileSystem) (p : Path) : Except DocumentFault Entries := do
  let text ← fs.documentText p
  match Json.read text with
  | .ok (.object entries) => .ok entries
  | .ok v => .error (.notObject v.kindName)
  | .error e =>
    match e with
    | .tooManyDigits _ => .error (.unreadable (e.message text))
    | .fault .. => .error (.invalidJson p (e.message text))
    | .halfPair => .error .inexpressible

/-- Reads the object in a YAML file; an empty file holds an empty object. -/
def readYamlObject (fs : FileSystem) (p : Path) : Except DocumentFault Entries := do
  let text ← fs.documentText p
  match Yaml.read text with
  | .ok (.object entries) => .ok entries
  | .ok .null => .ok []
  | .ok v => .error (.notMapping v.kindName)
  | .error .malformed => .error (.invalidYaml p)
  | .error (.tooManyDigits count) => .error (.unreadable (digitLimitMessage count))
  | .error (.noSuchDate reason) => .error (.unreadable reason)
  | .error (.mistagged scalar) => .error (.mistagged scalar)
  | .error .inexpressible => .error .inexpressible

/-- Reads the object in a file. -/
def readObject (fs : FileSystem) (p : Path) : Except DocumentFault Entries :=
  if !fs.has p then .error (.missing p)
  else if !fs.hasFile p then .error (.notFile p)
  else
    let suffix := String.ofList (Text.lower p.suffix.toList)
    if suffix = ".yaml" ∨ suffix = ".yml" then fs.readYamlObject p
    else if suffix = ".json" then fs.readJsonObject p
    else
      match fs.readJsonObject p with
      | .ok entries => .ok entries
      | .error .inexpressible => .error .inexpressible
      | .error _ => fs.readYamlObject p

end FileSystem

end ContentSchema
