import ContentSchema.Hook.Basic
import ContentSchema.Reading.Record

/-!
# References to hooks

A configuration names a hook as `module:name` or `module.name`.  Modules are known by dotted names;
one that lies inside another needs the outer one to be a package, which has modules inside.  A
module may fail while it is loaded.
-/

namespace ContentSchema

/-- What a module offers under a name. -/
inductive Export where
  /-- A hook. -/
  | hook (h : Hook)
  /-- Another value. -/
  | value (v : Value)

/-- How a module fails while it is loaded. -/
inductive ModuleFault where
  /-- Something that it imports is not there. -/
  | missing (reason : String)
  /-- A value is wrong. -/
  | wrongValue (reason : String)
  /-- An assertion does not hold. -/
  | assertion (reason : String)
  /-- It breaks off with another error. -/
  | broken (kind reason : String)
deriving DecidableEq, Repr

/-- A module: what it offers, or how it fails while it is loaded. -/
abbrev Module := Except ModuleFault (List (String × Export))

/-- Modules by name. -/
abbrev Library := List (String × Module)

/-- Why a reference leads to nothing. -/
inductive ImportFault where
  /-- It is no reference. -/
  | notReference (reference : String)
  /-- There is no such module. -/
  | noModule (name : String)
  /-- The module would lie inside one that is no package. -/
  | notPackage (name outer : String)
  /-- The module does not offer the name. -/
  | noExport (name wanted : String)
  /-- The module's name is relative. -/
  | relative (name : String)
  /-- The module, or one around it, fails while it is loaded. -/
  | failed (fault : ModuleFault)
deriving DecidableEq, Repr

namespace ImportFault

/-- The message about a reference. -/
def message : ImportFault → String
  | notReference reference => "'" ++ reference ++ "' is not a 'module:attribute' reference"
  | noModule name => "No module named " ++ displayText name
  | notPackage name outer =>
    "No module named " ++ displayText name ++ "; " ++ displayText outer ++ " is not a package"
  | noExport name wanted =>
    "Module '" ++ name ++ "' has no attribute '" ++ wanted ++ "'"
  | relative name => (Slip.relativeModule name).message
  | failed (.missing reason) | failed (.wrongValue reason) | failed (.assertion reason)
  | failed (.broken _ reason) => reason

/-- The slip behind a reference that nobody looks out for: its module is relative to no other one,
or breaks off. -/
def slip? : ImportFault → Option Slip
  | relative name => some (.relativeModule name)
  | failed (.broken kind reason) => some (.brokenModule kind reason)
  | _ => none

/-- What is reported about a reference in a configuration. -/
def fault (reference : String) : ImportFault → Fault
  | failed (.wrongValue reason) => .hookValue reason
  | failed (.assertion reason) => .hookAssertion reason
  | found => .hookImport reference found.message

end ImportFault

namespace Library

/-- A reference cut at its first colon, or at its last point if there is none. -/
def parts (reference : String) : List Char × List Char :=
  let cs := reference.toList
  if ':' ∈ cs then (cs.takeWhile (· ≠ ':'), (cs.dropWhile (· ≠ ':')).tail)
  else if '.' ∈ cs then
    let behind := cs.reverse.takeWhile (· ≠ '.')
    (((cs.reverse.drop behind.length).tail).reverse, behind.reverse)
  else ([], cs)

/-- Whether there are modules inside a module. -/
def isPackage (library : Library) (name : String) : Bool :=
  library.any fun m => m.1.startsWith (name ++ ".")

/-- The module with a name, where `outer` is the name of the module around it. -/
def module? (library : Library) (outer : Option String) (name : String) :
    Except ImportFault (List (String × Export)) :=
  match library.lookup name, outer with
  | some m, _ => m.mapError .failed
  | none, none => .error (.noModule name)
  | none, some outer =>
    if library.isPackage outer then .error (.noModule name) else .error (.notPackage name outer)

/-- The names of the modules on the way to a module: the starts of its name that end in front of a
point, and the name itself. -/
def wayTo (name : String) : List String :=
  let words := (name.toList.splitOnP (· == '.')).map String.ofList
  (List.range words.length).map fun n => String.intercalate "." (words.take (n + 1))

/-- Finds the last of some modules, each of which lies inside the one before. -/
def findLast (library : Library) (outer : Option String) (found : List (String × Export)) :
    List String → Except ImportFault (List (String × Export))
  | [] => .ok found
  | name :: rest => do
    let found ← library.module? outer name
    findLast library (some name) found rest

/-- What a reference leads to. -/
def resolve (library : Library) (reference : String) : Except ImportFault Export := do
  let (name, wanted) := parts reference
  if name.isEmpty || wanted.isEmpty then throw (.notReference reference)
  let moduleName := String.ofList name
  if name.head? = some '.' then throw (.relative moduleName)
  let exports ← library.findLast none [] (wayTo moduleName)
  match exports.lookup (String.ofList wanted) with
  | some found => return found
  | none => throw (.noExport moduleName (String.ofList wanted))

/-- Reads a reference to a hook, if there is one. -/
def readHook (library : Library) : Reader (Option Hook)
  | .null => .accepted none
  | .text reference =>
    match library.resolve reference with
    | .ok (.hook h) => .accepted (some h)
    | .ok (.value .null) => .accepted none
    | .ok (.value _) => .fail .notHook
    | .error found => .fail (found.fault reference)
  | _ => .fail .notHook

end Library

end ContentSchema
