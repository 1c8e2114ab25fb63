import ContentSchema.Compilation.Field

/-!
# Component tables

Each field that embeds a component gets a table of instances, named after the owner and the key of
the field.  An instance belongs to one row of the owner; the key to it is unique unless the field is
repeatable.  Fields that are translated move to a second table with one row for each instance and
language.
-/

namespace ContentSchema

/-- The table of the translations of `owner`, with the columns of the given fields. -/
def translationTable (owner : String) (fields : List Field) (settings : BuildSettings)
    (mapName : Option String) : Compiled Table := do
  let key := Naming.foreignKeyName owner
  let columns ← fields.mapM (·.column settings)
  let toOwner ← Column.backRelation owner key .cascade
  compiled <| Table.make
    { name := Naming.translationModelName owner
      columns := [Column.id, Column.string key, Column.string "lang"] ++ columns ++ [toOwner]
      indexes := []
      unique := [[key, "lang"]]
      mapName := mapName }

/-- The columns that tell the variants of a component apart. -/
def variantColumns : List Column := [
  { Column.string "variant_id" with nullable := true },
  { Column.bare "enabled" ScalarType.boolean.name with
    nullable := true, default := some (.bool true) }]

/-- How a component is embedded. -/
structure Embedding where
  /-- The table of the owner. -/
  owner : String
  /-- The key of the field. -/
  key : String
  /-- Whether the field holds several instances. -/
  repeatable : Bool
  /-- Circumstances of the embedding. -/
  context : Option ComponentContext
deriving Repr

namespace Component

/-- The fields of a component that move to a translation table, and those that stay. -/
def placeFields (c : Component) (settings : BuildSettings) : List Field × List Field :=
  if settings.translated then splitTranslatable c.storedFields else ([], c.storedFields)

/-- The tables of a component as it is embedded: its instances, and their translations if there are
fields to translate. -/
def tables (c : Component) (e : Embedding) (settings : BuildSettings) : Compiled (List Table) := do
  let name := Naming.componentTableName e.owner e.key settings.convention
  let key := Naming.foreignKeyName e.owner
  let (moved, kept) := c.placeFields settings
  let columns ← kept.mapM (·.column settings)
  let toOwner ← Column.backRelation e.owner key .cascade
  let ownerKey := { Column.string key with attributes := if e.repeatable then [] else ["@unique"] }
  let instances ← compiled <| Table.make
    { name := name
      columns := [Column.id, ownerKey] ++ (if e.repeatable then [Column.order] else []) ++
        (if e.context.any (·.hasVariants) then variantColumns else []) ++ columns ++
        [Column.createdAt, Column.updatedAt, toOwner] ++
        (if moved.isEmpty then [] else [Column.translations name])
      indexes := if e.repeatable then [[key]] else []
      unique := []
      mapName := none }
  if moved.isEmpty then return [instances]
  else
    let translations ← translationTable name moved settings
      (some (Naming.snakeCase (Naming.translationModelName name)))
    return [instances, translations]

end Component

end ContentSchema
