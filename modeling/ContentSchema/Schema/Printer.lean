import ContentSchema.Schema.Basic
import ContentSchema.Text.Blank
import ContentSchema.Text.Quoted
import ContentSchema.Value.Display

/-!
# Schema text

How a schema is written: one block for the datasource, one for each generator and one for each
table, with a blank line between them.  Inside a table every column is one line, names and types
padded to the widest of the table, and directives follow the columns behind a blank line.

Texts are lists of characters here, so that what is written can be compared with what is read.
-/

namespace ContentSchema

open Text (joinWith padEnd quoted stripEnd)

/-- What stands in front of every line inside a block. -/
def indent : List Char := [' ', ' ']

/-- What stands in front of the rules of a field. -/
def rulesMarker : List Char := "/// @zod.".toList

/-! ### Literals -/

/-- A double as a literal: whole ones without a point. -/
def doubleLiteral (x : Double) : List Char :=
  match x.toInt? with
  | some n => intText n
  | none => x.text

/-- A number as a literal. -/
def Num.literal : Num → List Char
  | .int n => intText n
  | .float x => doubleLiteral x

/-- A truth value as a literal. -/
def boolLiteral (b : Bool) : List Char := if b then "true".toList else "false".toList

namespace Value

mutual

/-- A value as a literal.  What has no literal of its own is written as the text that shows it. -/
def literal : Value → List Char
  | bool b => boolLiteral b
  | int n => intText n
  | float x => doubleLiteral x
  | text s => quoted s.toList
  | list items => '[' :: literals items ++ [']']
  | null => quoted (display null).toList
  | stamp timed shown => quoted (display (stamp timed shown)).toList
  | object entries => quoted (display (object entries)).toList

/-- Literals separated by commas. -/
def literals : List Value → List Char
  | [] => []
  | [v] => literal v
  | v :: vs => literal v ++ ',' :: ' ' :: literals vs

end

end Value

/-- The default of a column as a literal. -/
def ColumnDefault.literal : ColumnDefault → List Char
  | bool b => boolLiteral b
  | int n => intText n
  | float x => doubleLiteral x
  | text s => quoted s.toList

/-- An address: a reference to a variable stands for itself, all else is quoted. -/
def urlLiteral (url : String) : List Char :=
  if "env(".toList.isPrefixOf url.toList then url.toList else quoted url.toList

/-- Texts between double quotes as they are. -/
def plainQuoted (s : String) : List Char := '"' :: s.toList ++ ['"']

/-- Words separated by commas, in brackets. -/
def bracketed (names : List String) : List Char :=
  '[' :: joinWith [',', ' '] (names.map (·.toList)) ++ [']']

/-! ### Rules of a field -/

namespace FieldRules

/-- One call in the comment, if there is a number for it. -/
def numberCall (name : String) (n : Option Num) : List (List Char) :=
  match n with
  | some n => [name.toList ++ '(' :: n.literal ++ [')']]
  | none => []

/-- One call in the comment, if the flag is set. -/
def flagCall (name : String) (flag : Option Bool) : List (List Char) :=
  if flag = some true then [name.toList ++ ['(', ')']] else []

/-- A text, if there is one and it is not empty. -/
def present (s : Option String) (wrap : List Char → List Char) : List (List Char) :=
  match s with
  | some s => if s = "" then [] else [wrap s.toList]
  | none => []

/-- The calls of the comment in their fixed order: kinds of text, its length and pattern, bounds
and signs of a number, the number of items, and the rule that users wrote themselves. -/
def calls (r : FieldRules) : List (List Char) :=
  flagCall "email" r.email ++ flagCall "url" r.url ++ flagCall "uuid" r.uuid ++
    flagCall "cuid" r.cuid ++ numberCall "min" r.minLength ++ numberCall "max" r.maxLength ++
    present r.pattern (fun p => "regex(/".toList ++ p ++ "/)".toList) ++
    numberCall "min" r.min ++ numberCall "max" r.max ++ flagCall "int" r.integer ++
    flagCall "positive" r.positive ++ flagCall "negative" r.negative ++
    numberCall "length" r.minItems ++ numberCall "length" r.maxItems ++ present r.custom id

/-- The comment that carries the rules, if there are any. -/
def comment? (r : FieldRules) : Option (List Char) :=
  match r.calls with
  | [] => none
  | calls => some (rulesMarker ++ joinWith ['.'] calls)

end FieldRules

/-! ### Blocks -/

/-- A block: its header with an opening brace, its lines and a closing brace. -/
def block (header : List Char) (lines : List (List Char)) : List Char :=
  joinWith ['\n'] ((header ++ [' ', '\x7b']) :: lines ++ [['\x7d']])

/-- The block of a datasource. -/
def Datasource.print (name : String) (d : Datasource) : List Char :=
  let direct : List (List Char) := match d.directUrl with
    | some url =>
      if url = "" then [] else [indent ++ "directUrl = ".toList ++ urlLiteral url]
    | none => []
  block ("datasource ".toList ++ name.toList)
    ((indent ++ "provider = ".toList ++ plainQuoted d.provider.name) ::
      (indent ++ "url = ".toList ++ urlLiteral d.url) :: direct)

/-- The block of a generator; options without a value are left out. -/
def Generator.print (g : Generator) : List Char :=
  let output : List (List Char) := match g.output with
    | some path => if path = "" then [] else [indent ++ "output = ".toList ++ plainQuoted path]
    | none => []
  let options := g.options.filterMap fun (key, value) => match value with
    | .null => none
    | v => some (indent ++ key.toList ++ " = ".toList ++ v.literal)
  block ("generator ".toList ++ g.name.toList)
    ((indent ++ "provider = ".toList ++ plainQuoted g.provider) :: output ++ options)

/-- The attribute that describes a relation. -/
def Relation.print (r : Relation) : List Char :=
  let name : List (List Char) := match r.name with
    | some n => if n = "" then [] else [quoted n.toList]
    | none => []
  let columns (title : String) (names : List String) : List (List Char) :=
    if names.isEmpty then [] else [title.toList ++ ':' :: ' ' :: bracketed names]
  let action (title : String) (a : Option ReferentialAction) : List (List Char) :=
    match a with
    | some a => [title.toList ++ ':' :: ' ' :: a.name.toList]
    | none => []
  "@relation(".toList ++
    joinWith [',', ' '] (name ++ columns "fields" r.fields ++ columns "references" r.references ++
      action "onDelete" r.onDelete ++ action "onUpdate" r.onUpdate) ++ [')']

namespace Column

/-- The attribute of a default, unless the column has one already. -/
def defaultModifier (c : Column) : List (List Char) :=
  match c.default with
  | some d =>
    if c.hasAttribute "@default" then [] else ["@default(".toList ++ d.literal ++ [')']]
  | none => []

/-- The attribute of a physical name. -/
def mapModifier (c : Column) : List (List Char) :=
  match c.mapName with
  | some name => if name = "" then [] else ["@map(".toList ++ plainQuoted name ++ [')']]
  | none => []

/-- All that follows the type of a column. -/
def modifiers (c : Column) : List (List Char) :=
  c.attributes.map (·.toList) ++ c.defaultModifier ++
    (match c.relation with
      | some r => [r.print]
      | none => []) ++ c.mapModifier

/-- The line of a column, with its name and type padded to the given widths. -/
def print (nameWidth typeWidth : Nat) (c : Column) : List Char :=
  let head := padEnd nameWidth c.name.toList ++ ' ' :: padEnd typeWidth c.typeSignature.toList
  stripEnd (joinWith [' '] (head :: c.modifiers))

/-- The lines of a column: its rules as a comment, and the column itself. -/
def printLines (nameWidth typeWidth : Nat) (c : Column) : List (List Char) :=
  (match c.rules.bind (·.comment?) with
    | some comment => [indent ++ comment]
    | none => []) ++ [indent ++ c.print nameWidth typeWidth]

end Column

namespace Table

/-- The lines of the directives. -/
def directives (t : Table) : List (List Char) :=
  (t.indexes.map fun names => indent ++ "@@index(".toList ++ bracketed names ++ [')']) ++
    (t.unique.map fun names => indent ++ "@@unique(".toList ++ bracketed names ++ [')']) ++
    match t.mapName with
    | some name => if name = "" then [] else [indent ++ "@@map(".toList ++ plainQuoted name ++ [')']]
    | none => []

/-- The greatest length among the names of the columns. -/
def nameWidth (t : Table) : Nat := t.columns.foldl (fun w c => max w c.name.length) 0

/-- The greatest length among the types of the columns. -/
def typeWidth (t : Table) : Nat := t.columns.foldl (fun w c => max w c.typeSignature.length) 0

/-- The lines between the braces of a table. -/
def bodyLines (t : Table) : List (List Char) :=
  t.columns.flatMap (·.printLines t.nameWidth t.typeWidth) ++
    (if t.directives.isEmpty then [] else [] :: t.directives)

/-- The block of a table. -/
def print (t : Table) : List Char := block ("model ".toList ++ t.name.toList) t.bodyLines

end Table

/-- The text of a schema, which ends in a single line feed. -/
def Schema.print (s : Schema) : List Char :=
  joinWith ['\n', '\n']
    (s.datasource.print "db" :: s.generators.map (·.print) ++ s.tables.map (·.print)) ++ ['\n']

/-- A schema without generators for tables whose data live in SQLite. -/
def Schema.ofTables (tables : List Table) : Schema := ⟨.standard, [], tables⟩

end ContentSchema
