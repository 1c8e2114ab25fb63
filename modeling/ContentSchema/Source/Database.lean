import ContentSchema.Files.System
import ContentSchema.Source.Address
import ContentSchema.Source.Rows

/-!
# Databases

A database as a value: tables with columns of text.  A table is found by its name, where letters
`A` to `Z` count as their small forms, and gives its rows as objects.
-/

namespace ContentSchema

/-- A table of a database. -/
structure StoredTable where
  /-- Its columns. -/
  columns : List String
  /-- Its rows, with a text or nothing in each column. -/
  rows : List (List (Option String))
deriving Repr

/-- A row as an object. -/
def StoredTable.rowValue (t : StoredTable) (row : List (Option String)) : Value :=
  .object ((t.columns.zip row).map fun (column, cell) => (column, .ofText? cell))

/-- Tables by name. -/
abbrev Database := List (String × StoredTable)

/-- The table with a name. -/
def Database.table? (db : Database) (name : String) : Option StoredTable :=
  (db.find? fun t => t.1.toLower == name.toLower).map (·.2)

/-- Databases by the locations of their files. -/
abbrev Databases := List (Location × Database)

/-- The failure that rows of a table cannot be read. -/
def unreadableRows (table reason : String) : Failure :=
  .source ("Failed to read rows from table \"" ++ table ++ "\": " ++ reason)

/-- The failure that an address leads to no database. -/
def AddressFault.failure (table : String) : AddressFault → Failure
  | malformed => unreadableRows table "Could not parse SQLAlchemy URL from given URL string"
  | badNumber reason => .slip (.badNumber reason)
  | unknownDialect dialect =>
    unreadableRows table ("Can't load plugin: sqlalchemy.dialects:" ++ dialect)
  | notFile address =>
    unreadableRows table ("Invalid SQLite URL: " ++ address ++
      "\nValid SQLite URL forms are sqlite:///:memory: or sqlite:////absolute/path/to/file.db")
  | missingDriver name => .slip (.missingDriver name)
  | options => .slip .inexpressible
  | nullByte path => .file ⟨.nullByte, path⟩

/-- The location of a path below `here`, where each pair of points takes back a name. -/
def Path.location (here : Location) (p : Path) : Location :=
  p.names.foldl FileSystem.step (if p.root = "" then here else [])

namespace Databases

/-- The database at an address.  A file that no database is kept in counts as an empty one. -/
def atAddress (dbs : Databases) (here : Location) (address : String) : Except AddressFault Database := do
  match ← Address.file address with
  | none => return []
  | some p => return (dbs.lookup (p.location here)).getD []

/-- The rows of the database at an address. -/
def source (dbs : Databases) (here : Location) (address : String) : RowSource where
  find table :=
    match dbs.atAddress here address with
    | .error fault => .error (fault.failure table)
    | .ok db =>
      match db.table? table with
      | some t => .ok (.list (t.rows.map t.rowValue))
      | none => .error (unreadableRows table table)

end Databases

end ContentSchema
