import ContentSchema.Definition.Dump
import ContentSchema.Definition.Reading
import ContentSchema.Schema.Basic

/-!
# Schemas as values

Reading the parts of a schema out of values of unknown shape, unknown keys being refused, and
turning them back into values.
-/

namespace ContentSchema

open Record
open Value (ofText?)

/-- Reads one of the referential actions. -/
def ReferentialAction.read : Reader ReferentialAction :=
  Reader.oneOf ReferentialAction.all ReferentialAction.name

/-- A list of texts, empty if the key is missing. -/
def textsOrNone (k : Key) (entries : Entries) : Checked (List String) :=
  defaulted k [] (Reader.list Reader.text) entries

/-- Reads a list of lists of texts. -/
def columnSets (k : Key) (entries : Entries) : Checked (List (List String)) :=
  defaulted k [] (Reader.list (Reader.list Reader.text)) entries

namespace Relation

/-- Reads a relation. -/
def read : Reader Relation := object "RelationInfo" fun entries =>
  (fun name fields references onDelete onUpdate (_ : Unit) =>
      Relation.mk name fields references onDelete onUpdate)
    <$> optionally (.plain "name") Reader.text entries
    <*> textsOrNone (.plain "fields") entries
    <*> textsOrNone (.plain "references") entries
    <*> optionally (.plain "on_delete") ReferentialAction.read entries
    <*> optionally (.plain "on_update") ReferentialAction.read entries
    <*> refuseUnknown (["name", "fields", "references", "on_delete", "on_update"].map .plain) entries

/-- A relation as a value. -/
def toValue (r : Relation) : Value := .object [
  ("name", ofText? r.name), ("fields", .ofTexts r.fields),
  ("references", .ofTexts r.references), ("on_delete", ofText? (r.onDelete.map (·.name))),
  ("on_update", ofText? (r.onUpdate.map (·.name)))]

/-- A short text naming the columns of a relation. -/
def summary (r : Relation) : String :=
  "<Relation " ++ displayTexts r.fields ++ " -> " ++ displayTexts r.references ++ " onDelete=" ++
    (match r.onDelete with
      | some a => a.name
      | none => "None") ++ ">"

end Relation

namespace ColumnDefault

/-- Reads a default, which keeps the type that its value has. -/
def read : Reader ColumnDefault
  | .bool b => .accepted (bool b)
  | .int n => .accepted (int n)
  | .float x => .accepted (float x)
  | .text s => .accepted (text s)
  | _ => .rejected [
      ⟨["bool"], .notBool⟩, ⟨["int"], .notInt⟩, ⟨["float"], .notNumber⟩, ⟨["str"], .notText⟩]

/-- A default as a value. -/
def toValue : ColumnDefault → Value
  | bool b => .bool b
  | int n => .int n
  | float x => .float x
  | text s => .text s

end ColumnDefault

namespace Column

/-- The keys of a column. -/
def keys : List Key := [
  "name", "type", "nullable", "is_list", "default", "attributes", "relation", "map_name",
  "validation"].map .plain

/-- Replaces the mark for missing values of a list column, before either mark is read: any entry
that is present and not empty counts as a mark here. -/
def listIsNeverNullable (entries : Entries) : Entries :=
  let marked (key : String) := (entries.find? key).any Value.isTruthy
  if marked "is_list" && marked "nullable" then entries.insert "nullable" (.bool false) else entries

/-- Reads the parts of a column. -/
def readParts (entries : Entries) : Checked Column :=
  (fun name type nullable isList default attributes relation mapName rules (_ : Unit) =>
      Column.mk name type nullable isList default attributes relation mapName rules)
    <$> required (.plain "name") Reader.nonEmptyText entries
    <*> required (.plain "type") Reader.nonEmptyText entries
    <*> defaulted (.plain "nullable") false Reader.bool entries
    <*> defaulted (.plain "is_list") false Reader.bool entries
    <*> optionally (.plain "default") ColumnDefault.read entries
    <*> textsOrNone (.plain "attributes") entries
    <*> optionally (.plain "relation") Relation.read entries
    <*> optionally (.plain "map_name") Reader.text entries
    <*> optionally (.plain "validation") FieldRules.read entries
    <*> refuseUnknown keys entries

/-- Reads a column. -/
def read : Reader Column := object "ColumnInfo" fun entries =>
  readParts (listIsNeverNullable entries)

/-- A column as a value, with what follows from its parts. -/
def toValue (c : Column) : Value := .object [
  ("name", .text c.name), ("type", .text c.type), ("nullable", .bool c.nullable),
  ("is_list", .bool c.isList), ("default", (c.default.map (·.toValue)).getD .null),
  ("attributes", .ofTexts c.attributes), ("relation", (c.relation.map (·.toValue)).getD .null),
  ("map_name", ofText? c.mapName), ("validation", (c.rules.map (·.toValue)).getD .null),
  ("type_signature", .text c.typeSignature), ("is_scalar", .bool c.isScalar)]

end Column

namespace Table

/-- Reads a table. -/
def read : Reader Table := object "TableInfo" fun entries =>
  (fun name columns indexes unique mapName (_ : Unit) =>
      Table.mk name columns indexes unique mapName)
    <$> required (.plain "name") Reader.nonEmptyText entries
    <*> required (.plain "columns") (Reader.nonEmptyList Column.read) entries
    <*> columnSets (.plain "indexes") entries
    <*> columnSets (.plain "unique") entries
    <*> optionally (.plain "map_name") Reader.text entries
    <*> refuseUnknown (["name", "columns", "indexes", "unique", "map_name"].map .plain) entries

/-- A table as a value, with what follows from its parts. -/
def toValue (t : Table) : Value := .object [
  ("name", .text t.name), ("columns", .list (t.columns.map (·.toValue))),
  ("indexes", .list (t.indexes.map .ofTexts)), ("unique", .list (t.unique.map .ofTexts)),
  ("map_name", ofText? t.mapName), ("column_names", .ofTexts t.columnNames)]

end Table

namespace Datasource

/-- Reads a datasource. -/
def read : Reader Datasource := object "DatasourceInfo" fun entries =>
  (fun provider url directUrl (_ : Unit) => Datasource.mk provider url directUrl)
    <$> defaulted (.plain "provider") .sqlite (Reader.oneOf Provider.all Provider.name) entries
    <*> defaulted (.plain "url") defaultUrl Reader.text entries
    <*> optionally (.plain "direct_url") Reader.text entries
    <*> refuseUnknown (["provider", "url", "direct_url"].map .plain) entries

/-- A datasource as a value. -/
def toValue (d : Datasource) : Value := .object [
  ("provider", .text d.provider.name), ("url", .text d.url), ("direct_url", ofText? d.directUrl)]

end Datasource

/-- Reads an object with free keys. -/
def Reader.entries : Reader Entries
  | .object entries => .accepted entries
  | _ => .fail .notObject

namespace Generator

/-- Reads a generator. -/
def read : Reader Generator := object "GeneratorInfo" fun entries =>
  (fun name provider output options (_ : Unit) => Generator.mk name provider output options)
    <$> required (.plain "name") Reader.nonEmptyText entries
    <*> required (.plain "provider") Reader.nonEmptyText entries
    <*> optionally (.plain "output") Reader.text entries
    <*> defaulted (.plain "config") [] Reader.entries entries
    <*> refuseUnknown (["name", "provider", "output", "config"].map .plain) entries

/-- A generator as a value. -/
def toValue (g : Generator) : Value := .object [
  ("name", .text g.name), ("provider", .text g.provider), ("output", ofText? g.output),
  ("config", .object g.options)]

end Generator

namespace Schema

/-- Reads a schema. -/
def read : Reader Schema := object "SchemaInfo" fun entries =>
  (fun datasource generators tables (_ : Unit) => Schema.mk datasource generators tables)
    <$> defaulted (.plain "datasource") .standard Datasource.read entries
    <*> defaulted (.plain "generators") [] (Reader.list Generator.read) entries
    <*> defaulted (.plain "tables") [] (Reader.list Table.read) entries
    <*> refuseUnknown (["datasource", "generators", "tables"].map .plain) entries

/-- A schema as a value, with what follows from its parts. -/
def toValue (s : Schema) : Value := .object [
  ("datasource", s.datasource.toValue), ("generators", .list (s.generators.map (·.toValue))),
  ("tables", .list (s.tables.map (·.toValue))), ("table_names", .ofTexts s.tableNames)]

end Schema

end ContentSchema
