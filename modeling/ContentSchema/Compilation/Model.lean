import ContentSchema.Compilation.Component

/-!
# Model tables

A content model becomes a base table and, if translation is in effect and there are fields to
translate, a translation table.  Derived fields take no column.
-/

namespace ContentSchema

namespace ContentModel

/-- The settings in effect for a model, which may leave translation out. -/
def effectiveSettings (m : ContentModel) (settings : BuildSettings) : BuildSettings :=
  if settings.translated && m.settings.translated == some false then settings.withoutTranslation
  else settings

/-- Keys that get an index together. -/
def statusIndex : List String := ["status", "published_at"]

/-- The indexes of a model: its sort field, and the status index if both keys exist. -/
def indexes (m : ContentModel) : List (List String) :=
  (match m.settings.sortField with
    | some key => if key = "" then [] else [[key]]
    | none => []) ++
    if statusIndex.all fun key => m.fieldKeys.contains key then [statusIndex] else []

/-- The fields that move to the translation table. -/
def movedFields (m : ContentModel) (settings : BuildSettings) : List Field :=
  if settings.translated then (splitTranslatable m.storedFields).1 else []

/-- Whether the component that a field embeds is known to be missing. -/
def lacksComponent (available : Option (List String)) (f : Field) : Bool :=
  match available, f.component? with
  | some slugs, some c => !slugs.contains c.slug
  | _, _ => false

/-- The column of a field on the base table; none if its component is missing or if it moved. -/
def baseColumn? (owner : String) (settings : BuildSettings) (available : Option (List String))
    (moved : List String) (f : Field) : Compiled (Option Column) :=
  if f.type = .component then
    if lacksComponent available f then return none
    else some <$> f.componentReference owner settings
  else if moved.contains f.key then return none
  else some <$> f.column settings

/-- The tables of a model.  If `available` lists components, fields that embed others take no
column. -/
def tables (m : ContentModel) (settings : BuildSettings) (available : Option (List String)) :
    Compiled (List Table) := do
  let settings := m.effectiveSettings settings
  let name := settings.tableName m.slug
  let moved := m.movedFields settings
  let columns ← m.storedFields.mapM
    (baseColumn? name settings available (moved.map (·.key)))
  let base ← compiled <| Table.make
    { name := name
      columns := Column.id :: columns.filterMap id ++ [Column.createdAt, Column.updatedAt] ++
        (if moved.isEmpty then [] else [Column.translations name])
      indexes := m.indexes
      unique := []
      mapName := none }
  if moved.isEmpty then return [base]
  else
    let translations ← translationTable name moved settings
      (some (Naming.translationTableName name settings.pattern))
    return [base, translations]

end ContentModel

end ContentSchema
