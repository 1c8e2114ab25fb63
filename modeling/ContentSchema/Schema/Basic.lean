import ContentSchema.Definition.Basic
import ContentSchema.Reading.Checked

/-!
# Relational schemas

Tables with typed columns, relations between them, and the blocks that say where the data live and
what is generated from the schema.  A column's type is a scalar or the name of another table.
-/

namespace ContentSchema

/-- The scalar types of columns. -/
inductive ScalarType where
  | string | int | float | boolean | dateTime | json
deriving DecidableEq, Repr

namespace ScalarType

/-- All scalar types. -/
def all : List ScalarType := [string, int, float, boolean, dateTime, json]

/-- The name of a scalar type in schemas. -/
def name : ScalarType → String
  | string => "String"
  | int => "Int"
  | float => "Float"
  | boolean => "Boolean"
  | dateTime => "DateTime"
  | json => "Json"

end ScalarType

/-- What happens to a row when the row that it refers to is deleted or changed. -/
inductive ReferentialAction where
  | cascade | restrict | noAction | setNull | setDefault
deriving DecidableEq, Repr

namespace ReferentialAction

/-- All referential actions. -/
def all : List ReferentialAction := [cascade, restrict, noAction, setNull, setDefault]

/-- The name of a referential action in schemas. -/
def name : ReferentialAction → String
  | cascade => "Cascade"
  | restrict => "Restrict"
  | noAction => "NoAction"
  | setNull => "SetNull"
  | setDefault => "SetDefault"

/-- The referential action with a name. -/
def ofName? (s : String) : Option ReferentialAction := all.find? fun a => a.name == s

end ReferentialAction

/-- The databases that a schema can be made for. -/
inductive Provider where
  | sqlite | postgresql | mysql
deriving DecidableEq, Repr

namespace Provider

/-- All providers. -/
def all : List Provider := [sqlite, postgresql, mysql]

/-- The name of a provider in schemas. -/
def name : Provider → String
  | sqlite => "sqlite"
  | postgresql => "postgresql"
  | mysql => "mysql"

end Provider

/-- The value that a column has unless another one is given. -/
inductive ColumnDefault where
  | bool (b : Bool)
  | int (n : Int)
  | float (x : Double)
  | text (s : String)
deriving DecidableEq, Repr

/-- A number as the default of a column. -/
def ColumnDefault.ofNum : Num → ColumnDefault
  | .int n => int n
  | .float x => float x

/-- How a relation column finds the rows it leads to. -/
structure Relation where
  /-- A name that keeps several relations between two tables apart. -/
  name : Option String
  /-- Columns of this table. -/
  fields : List String
  /-- The columns of the other table that they refer to. -/
  references : List String
  /-- What happens when the other row is deleted. -/
  onDelete : Option ReferentialAction
  /-- What happens when the other row is changed. -/
  onUpdate : Option ReferentialAction
deriving DecidableEq, Repr

/-- One column of a table. -/
structure Column where
  /-- The name. -/
  name : String
  /-- A scalar type or the name of another table. -/
  type : String
  /-- Whether there may be no value. -/
  nullable : Bool
  /-- Whether the column holds several values. -/
  isList : Bool
  /-- The value unless another one is given. -/
  default : Option ColumnDefault
  /-- Attributes as they are written. -/
  attributes : List String
  /-- How a relation column finds its rows. -/
  relation : Option Relation
  /-- The physical name. -/
  mapName : Option String
  /-- Rules that travel along as a comment. -/
  rules : Option FieldRules
deriving Repr, BEq

namespace Column

/-- A column that must have a value, and nothing else said about it. -/
def bare (name type : String) : Column := ⟨name, type, false, false, none, [], none, none, none⟩

/-- The type with a mark for lists and one for missing values. -/
def typeSignature (c : Column) : String :=
  if c.isList then c.type ++ "[]" else if c.nullable then c.type ++ "?" else c.type

/-- Whether the type is a scalar. -/
def isScalar (c : Column) : Bool := ScalarType.all.any fun t => t.name == c.type

/-- Whether some attribute starts with the given text. -/
def hasAttribute (c : Column) (start : String) : Bool :=
  c.attributes.any fun a => start.toList.isPrefixOf a.toList

/-- A short text naming the column. -/
def summary (c : Column) : String := "<Column " ++ c.name ++ " " ++ c.typeSignature ++ ">"

/-- Accepts a column whose name and type are not empty; a list column loses the mark for missing
values. -/
def make (c : Column) : Checked Column :=
  let nonEmpty (segment s : String) : Checked Unit :=
    if s = "" then .rejected [⟨[segment], .emptyText⟩] else .accepted ()
  (fun _ _ => { c with nullable := c.nullable && !c.isList })
    <$> nonEmpty "name" c.name <*> nonEmpty "type" c.type

end Column

/-- A table. -/
structure Table where
  /-- The logical name. -/
  name : String
  /-- The columns. -/
  columns : List Column
  /-- Sets of columns that have an index. -/
  indexes : List (List String)
  /-- Sets of columns whose values together are unique. -/
  unique : List (List String)
  /-- The physical name. -/
  mapName : Option String
deriving Repr, BEq

namespace Table

/-- The names of the columns. -/
def columnNames (t : Table) : List String := t.columns.map (·.name)

/-- The first column with a name. -/
def column? (t : Table) (name : String) : Option Column := t.columns.find? (·.name == name)

/-- A short text naming the table. -/
def summary (t : Table) : String :=
  "<Table " ++ t.name ++ " (" ++ toString t.columns.length ++ " cols)>"

/-- Accepts a table whose name is not empty. -/
def make (t : Table) : Checked Table :=
  if t.name = "" then .rejected [⟨["name"], .emptyText⟩] else .accepted t

end Table

/-- Where the data live. -/
structure Datasource where
  /-- The kind of database. -/
  provider : Provider
  /-- Its address. -/
  url : String
  /-- Its address for those who bypass a pool of connections. -/
  directUrl : Option String
deriving DecidableEq, Repr

/-- The reference to the variable that holds the address of the database. -/
def defaultUrl : String := "env(\"DATABASE_URL\")"

/-- The data live in SQLite. -/
def Datasource.standard : Datasource := ⟨.sqlite, defaultUrl, none⟩

/-- Something generated from the schema. -/
structure Generator where
  /-- The name of the block. -/
  name : String
  /-- The program that generates. -/
  provider : String
  /-- Where it writes. -/
  output : Option String
  /-- Its options. -/
  options : Entries
deriving Repr, BEq

/-- A whole schema. -/
structure Schema where
  /-- Where the data live. -/
  datasource : Datasource
  /-- What is generated. -/
  generators : List Generator
  /-- The tables. -/
  tables : List Table
deriving Repr, BEq

namespace Schema

/-- The names of the tables. -/
def tableNames (s : Schema) : List String := s.tables.map (·.name)

/-- The first table with a name. -/
def table? (s : Schema) (name : String) : Option Table := s.tables.find? (·.name == name)

/-- A short text counting tables and generators. -/
def summary (s : Schema) : String :=
  "<Schema " ++ toString s.tables.length ++ " tables, " ++ toString s.generators.length ++
    " generators>"

end Schema

end ContentSchema
