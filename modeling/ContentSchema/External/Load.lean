import ContentSchema.Compilation.Warning
import ContentSchema.Files.System
import ContentSchema.Schema.Parser

/-!
# External tables

Tables that are declared in files beside the content models.  Each file is read on its own; one that
cannot be read gives a warning and no tables.
-/

namespace ContentSchema

/-- One path or a list of them. -/
inductive Paths where
  | one (path : String)
  | many (paths : List String)
deriving DecidableEq, Repr

/-- The paths in order. -/
def Paths.toList : Paths → List String
  | one path => [path]
  | many paths => paths

/-- Where external tables are declared, and which of them count. -/
inductive ExternalTables where
  /-- All tables of the files. -/
  | all (paths : Paths)
  /-- The tables of the files that are among those to take, if any are listed, and not among those
  to leave out. -/
  | filtered (paths : Paths) (taken leftOut : Option (List String))
deriving DecidableEq, Repr

namespace ExternalTables

/-- The paths of the files. -/
def paths : ExternalTables → List String
  | all paths | filtered paths _ _ => paths.toList

/-- The names to take. -/
def taken? : ExternalTables → Option (List String)
  | all _ => none
  | filtered _ taken _ => taken

/-- The names to leave out. -/
def leftOut? : ExternalTables → Option (List String)
  | all _ => none
  | filtered _ _ leftOut => leftOut

/-- Whether nothing at all is declared. -/
def isNothing : ExternalTables → Bool
  | all (.one path) => path = ""
  | all (.many paths) => paths.isEmpty
  | filtered .. => false

end ExternalTables

/-- The tables whose names are among those to take and not among those to leave out.  A list that is
not there or empty rules nothing out. -/
def filterTables (tables : List Table) (taken leftOut : Option (List String)) : List Table :=
  let tables := match taken with
    | some names => if names.isEmpty then tables else tables.filter fun t => names.contains t.name
    | none => tables
  match leftOut with
  | some names => if names.isEmpty then tables else tables.filter fun t => !names.contains t.name
  | none => tables

namespace FileSystem

/-- The tables that one file declares, or why it declares none. -/
def readTables (fs : FileSystem) (path : String) : Except String (List Table) := do
  let text ← (fs.readText (.ofText path)).mapError TextFault.message
  (parseTables text).mapError SchemaError.message

/-- The tables of one file that count, and the warning about it if it cannot be read. -/
def loadTables (fs : FileSystem) (taken leftOut : Option (List String)) (path : String) :
    List Table × List Warning :=
  match fs.readTables path with
  | .ok tables => (filterTables tables taken leftOut, [])
  | .error reason => ([], [.externalUnreadable path reason])

/-- The external tables in the order of their files, and the warnings. -/
def externalTables (fs : FileSystem) (source : Option ExternalTables) : List Table × List Warning :=
  match source with
  | none => ([], [])
  | some source =>
    if source.isNothing then ([], [])
    else
      let loaded := source.paths.map (fs.loadTables source.taken? source.leftOut?)
      (loaded.flatMap (·.1), loaded.flatMap (·.2))

end FileSystem

end ContentSchema
