import ContentSchema.Naming.Case

/-!
# Names of tables and columns

How tables and the columns between them are named after slugs, field keys and each other.
-/

namespace ContentSchema

namespace Naming

/-- The place of the owner's name in a translation pattern. -/
def placeholder : String := "$\x7bidentifier\x7d"

/-- The translation pattern of runs that give none. -/
def defaultPattern : String := placeholder ++ "_translation"

/-- The table of a model or component.  An empty lead-in counts as none. -/
def tableName (slug : String) (convention : Convention) (lead : Option String) : String :=
  let name := match convention with
    | .snakeCase => .ofList (Text.replaceAll ['-'] ['_'] slug.toList)
    | .camelCase => camelCase slug
    | .pascalCase => pascalCase slug
  lead.getD "" ++ name

/-- The physical name of a translation table: a pattern with the owner's name in place of the
placeholder. -/
def translationTableName (table pattern : String) : String :=
  .ofList (Text.replaceAll placeholder.toList (snakeCase table).toList pattern.toList)

/-- The logical name of a translation table. -/
def translationModelName (table : String) : String := table ++ "Translation"

/-- A key without one `s` at its end. -/
def singular (key : String) : String :=
  let cs := key.toList
  if cs.getLast? = some 's' then .ofList cs.dropLast else key

/-- The table of the components that a field of `parent` embeds. -/
def componentTableName (parent key : String) (convention : Convention) : String :=
  match convention with
  | .snakeCase => snakeCase parent ++ "_" ++ singular key
  | _ => parent ++ pascalCase (singular key)

/-- The table between two tables that are related many to many. -/
def junctionTableName (owner target : String) (convention : Convention) : String :=
  match convention with
  | .snakeCase => snakeCase owner ++ "_" ++ snakeCase target
  | _ => owner ++ target

/-- The column that refers to a row of a table. -/
def foreignKeyName (table : String) : String := snakeCase table ++ "_id"

/-- The relation column that leads back to a table. -/
def backRelationName (table : String) : String := snakeCase table

end Naming

/-- Choices about names and translation that hold for a whole run. -/
structure BuildSettings where
  /-- How names are built. -/
  convention : Convention
  /-- What stands in front of every table name. -/
  lead : Option String
  /-- Whether translation tables are made. -/
  translated : Bool
  /-- How translation tables are called. -/
  pattern : String
  /-- Tables that are declared elsewhere. -/
  externalNames : List String
deriving Repr

namespace BuildSettings

/-- Pascal case names, with translation. -/
def standard : BuildSettings := ⟨.pascalCase, none, true, Naming.defaultPattern, []⟩

/-- The table of a model or component. -/
def tableName (s : BuildSettings) (slug : String) : String :=
  Naming.tableName slug s.convention s.lead

/-- The table that a relation points at; external names stand for themselves. -/
def targetName (s : BuildSettings) (target : String) : String :=
  if target ∈ s.externalNames then target else s.tableName target

/-- The same settings without translation. -/
def withoutTranslation (s : BuildSettings) : BuildSettings := { s with translated := false }

end BuildSettings

end ContentSchema
