import ContentSchema.Naming.Table
import ContentSchema.Schema.Basic

/-!
# Columns of a field

Which column a field takes in the table of its owner, and the columns that tables have of their own.

* Texts, selections and JSON are strings, numbers are floats unless they are meant to be whole.
* A relation to one row and a medium are the string `<key>_id`; a relation to many rows and many
  media, if there is an external table of media, are lists.
* A component is a reference to the table of its instances.
-/

namespace ContentSchema

/-- Why definitions cannot be compiled. -/
inductive CompileError where
  /-- A relation field has no relation configuration. -/
  | relationUnconfigured (key : String)
  /-- A component field has no component configuration. -/
  | componentUnconfigured (key : String)
  /-- A field is no relation from many rows to many. -/
  | notManyToMany (key : String)
  /-- A field has a type that no column stores. -/
  | unknownType (shown key : String)
  /-- A column or table is not acceptable. -/
  | rejected (issues : List Issue)
deriving DecidableEq, Repr

/-- The words for the error. -/
def CompileError.message : CompileError → String
  | relationUnconfigured key => "Relation field '" ++ key ++ "' has no relation config"
  | componentUnconfigured key => "Component field '" ++ key ++ "' has no component config"
  | notManyToMany key => "Field '" ++ key ++ "' is not a many-to-many relation"
  | unknownType shown key => "Unknown field type: " ++ shown ++ " (field '" ++ key ++ "')"
  | rejected issues =>
    String.intercalate "\n" (issues.map fun i => i.pathText ++ ": " ++ i.fault.markedMessage)

/-- The outcome of compiling something. -/
abbrev Compiled (α : Type) := Except CompileError α

/-- An acceptable column or table, or the reasons why it is none. -/
def compiled {α : Type} : Checked α → Compiled α
  | .accepted a => .ok a
  | .rejected issues => .error (.rejected issues)

/-- The external table of media. -/
def mediaTable : String := "Media"

namespace Field

/-- The column of a field that is stored as a scalar under its own key. -/
def scalarColumn (f : Field) (type : ScalarType) (default : Option ColumnDefault) : Column :=
  { Column.bare f.key type.name with
    nullable := !f.required, default := default, rules := f.rules }

/-- The column of a number field. -/
def numberColumn (f : Field) : Column :=
  let (format, default) := match f.config with
    | some (.number c) => (c.format, c.default)
    | _ => (none, none)
  f.scalarColumn (if format = some .integer then .int else .float)
    (default.map ColumnDefault.ofNum)

/-- The column of a boolean field. -/
def booleanColumn (f : Field) : Column :=
  let default := match f.config with
    | some (.boolean c) => c.default
    | _ => none
  f.scalarColumn .boolean (default.map ColumnDefault.bool)

/-- The column that holds the identifier of the one row that a field leads to. -/
def idColumn (f : Field) (attributes : List String) : Column :=
  { Column.bare (f.key ++ "_id") ScalarType.string.name with
    nullable := !f.required, attributes := attributes }

/-- The column of a field that leads to many rows of a table. -/
def listColumn (f : Field) (table : String) : Column :=
  { Column.bare f.key table with isList := true }

/-- Whether a media field holds several media. -/
def holdsManyMedia (f : Field) : Bool :=
  match f.config with
  | some (.media c) => c.multiple
  | _ => false

/-- The column of a media field. -/
def mediaColumn (f : Field) (settings : BuildSettings) : Column :=
  if f.holdsManyMedia ∧ mediaTable ∈ settings.externalNames then f.listColumn mediaTable
  else f.idColumn []

/-- The column of a relation. -/
def relationColumn (f : Field) (c : RelationConfig) (settings : BuildSettings) : Column :=
  match c.cardinality with
  | .oneToMany | .manyToMany => f.listColumn (settings.targetName c.target)
  | .oneToOne => f.idColumn ["@unique"]
  | .manyToOne => f.idColumn []

/-- The column of an embedded component whose owner is not known. -/
def componentColumn (f : Field) (c : ComponentConfig) (settings : BuildSettings) : Column :=
  { Column.bare f.key (settings.tableName c.slug) with
    nullable := !f.required, isList := c.repeatable }

/-- The column of a field that is stored as the given type, before it is accepted. -/
def proposedColumn (f : Field) (type : FieldType) (settings : BuildSettings) : Compiled Column :=
  match type with
  | .text | .rich | .select | .json => .ok (f.scalarColumn .string none)
  | .number => .ok f.numberColumn
  | .boolean => .ok f.booleanColumn
  | .date => .ok (f.scalarColumn .dateTime none)
  | .media => .ok (f.mediaColumn settings)
  | .relation =>
    match f.relation? with
    | some c => .ok (f.relationColumn c settings)
    | none => .error (.relationUnconfigured f.key)
  | .component =>
    match f.component? with
    | some c => .ok (f.componentColumn c settings)
    | none => .error (.componentUnconfigured f.key)

/-- The column of a field. -/
def column (f : Field) (settings : BuildSettings) : Compiled Column :=
  (f.proposedColumn f.type settings).bind fun c => compiled c.make

/-- The column of a field whose type is given by name. -/
def columnNamed (f : Field) (type : String) (settings : BuildSettings) : Compiled Column :=
  match FieldType.ofName? type with
  | some t => ({ f with type := t }).column settings
  | none => .error (.unknownType (displayText type) f.key)

/-- The reference on the table `owner` to the components that the field embeds. -/
def componentReference (f : Field) (owner : String) (settings : BuildSettings) :
    Compiled Column :=
  match f.component? with
  | some c => compiled <| Column.make
      { Column.bare f.key (Naming.componentTableName owner f.key settings.convention) with
        nullable := true, isList := c.repeatable }
  | none => .error (.componentUnconfigured f.key)

end Field

/-- Fields that move to a translation table and fields that stay, both in order. -/
def splitTranslatable (fields : List Field) : List Field × List Field :=
  fields.partition (·.isTranslatable)

/-! ### Columns that tables have of their own -/

namespace Column

/-- The column that identifies a row. -/
def id : Column :=
  { bare "id" ScalarType.string.name with attributes := ["@id", "@default(cuid())"] }

/-- The column that says when a row was made. -/
def createdAt : Column :=
  { bare "created_at" ScalarType.dateTime.name with attributes := ["@default(now())"] }

/-- The column that says when a row was last changed. -/
def updatedAt : Column :=
  { bare "updated_at" ScalarType.dateTime.name with attributes := ["@updatedAt"] }

/-- The column that puts rows into an order. -/
def order : Column := { bare "order" ScalarType.int.name with nullable := true }

/-- A string column without attributes. -/
def string (name : String) : Column := bare name ScalarType.string.name

/-- The relation column that leads back to `table` through the column `key`. -/
def backRelation (table key : String) (onDelete : ReferentialAction) : Compiled Column :=
  compiled <| make
    { bare (Naming.backRelationName table) table with
      relation := some ⟨none, [key], ["id"], some onDelete, none⟩ }

/-- The list of all translations of a row. -/
def translations (owner : String) : Column :=
  { bare "translations" (Naming.translationModelName owner) with isList := true }

end Column

end ContentSchema
