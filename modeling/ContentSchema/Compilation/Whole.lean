import ContentSchema.Compilation.Junction
import ContentSchema.Compilation.Model
import ContentSchema.Compilation.Warning

/-!
# Compiling all models

Each model is compiled on its own: its tables, and what its fields add to them (`Addition`).  The
whole is the models' tables in order, each model's additions behind its own tables.  Only one thing
passes from model to model: a junction table whose name an earlier one has is left out.
-/

namespace ContentSchema

/-- What a field adds to the tables of its model. -/
inductive Addition where
  /-- The tables of an embedded component. -/
  | component (tables : List Table)
  /-- A junction table. -/
  | junction (table : Table)
  /-- Nothing, as the component does not exist. -/
  | missing (warning : Warning)
deriving Repr

/-- Components by slug. -/
abbrev Components := List (String × Component)

namespace Components

/-- The component with a slug. -/
def find? (components : Components) (slug : String) : Option Component := components.lookup slug

/-- Binds a slug, in its place if it is bound already and at the end otherwise. -/
def insert (components : Components) (c : Component) : Components :=
  if components.any (·.1 == c.slug) then
    components.map fun e => if e.1 == c.slug then (c.slug, c) else e
  else components ++ [(c.slug, c)]

/-- Components by slug; of several with one slug the last one counts. -/
def ofList (components : List Component) : Components := components.foldl insert []

/-- The slugs of the components. -/
def slugs (components : Components) : List String := components.map (·.1)

end Components

namespace ContentModel

/-- What one stored field adds to the tables of its model. -/
def additionOf (m : ContentModel) (settings : BuildSettings) (components : Components)
    (owner : String) (f : Field) : Compiled (Option Addition) :=
  match f.component? with
  | some c =>
    match components.find? c.slug with
    | none => return some (.missing (.missingComponent m.slug f.key c.slug))
    | some component => do
      let tables ← component.tables ⟨owner, f.key, c.repeatable, c.context⟩ settings
      return some (.component tables)
  | none =>
    if f.manyToMany?.isSome then do
      let table ← f.junctionTable owner settings
      return some (.junction table)
    else return none

/-- What the fields of a model add to its tables, in order. -/
def additions (m : ContentModel) (settings : BuildSettings) (components : Components) :
    Compiled (List Addition) := do
  -- the model's own choice of translation holds for its components, too
  let settings := m.effectiveSettings settings
  let owner := settings.tableName m.slug
  let found ← m.storedFields.mapM (m.additionOf settings components owner)
  return found.filterMap id

/-- The warnings about the derived fields of a model. -/
def derivedWarnings (m : ContentModel) : List Warning :=
  (m.fields.filter (·.derived)).map fun f => .derivedSkipped m.slug f.key

end ContentModel

/-- The tables of additions, without junctions whose names are in `seen` or occurred before, and the
names of all junctions so far. -/
def keepAdditions (seen : List String) : List Addition → List Table × List String
  | [] => ([], seen)
  | .component tables :: rest =>
    let (more, seen) := keepAdditions seen rest
    (tables ++ more, seen)
  | .junction table :: rest =>
    -- a relation that is declared at both ends makes its table once
    if table.name ∈ seen then keepAdditions seen rest
    else
      let (more, seen) := keepAdditions (table.name :: seen) rest
      (table :: more, seen)
  | .missing _ :: rest => keepAdditions seen rest

/-- The warnings among additions. -/
def additionWarnings (additions : List Addition) : List Warning :=
  additions.filterMap fun
    | .missing w => some w
    | _ => none

/-- A model's own tables and the additional tables that are kept. -/
structure Group where
  /-- The base table and its translations. -/
  own : List Table
  /-- Component tables and junctions. -/
  derived : List Table
deriving Repr

/-- Chooses the additional tables of each model, where `seen` holds the junctions so far. -/
def groupTables (seen : List String) : List (List Table × List Addition) → List Group
  | [] => []
  | (own, additions) :: rest =>
    let (derived, seen) := keepAdditions seen additions
    ⟨own, derived⟩ :: groupTables seen rest

/-- All models compiled. -/
structure Compilation where
  /-- The tables by model. -/
  groups : List Group
  /-- The warnings: derived fields of all models, then missing components. -/
  warnings : List Warning
deriving Repr

namespace Compilation

/-- All tables in order. -/
def tables (c : Compilation) : List Table := c.groups.flatMap fun g => g.own ++ g.derived

/-- The number of component and junction tables. -/
def derivedCount (c : Compilation) : Nat := (c.groups.flatMap (·.derived)).length

end Compilation

/-- The own tables of each model. -/
def compileOwn (models : List ContentModel) (components : Components) (settings : BuildSettings) :
    Compiled (List (List Table)) :=
  models.mapM fun m => m.tables settings (some components.slugs)

/-- What the fields of each model add to its tables. -/
def compileAdditions (models : List ContentModel) (components : Components)
    (settings : BuildSettings) : Compiled (List (List Addition)) :=
  models.mapM fun m => m.additions settings components

/-- The compilation of models with these own tables and additions. -/
def Compilation.ofParts (models : List ContentModel) (own : List (List Table))
    (additions : List (List Addition)) : Compilation where
  groups := groupTables [] (own.zip additions)
  warnings := models.flatMap (·.derivedWarnings) ++ additions.flatMap additionWarnings

/-- Compiles all models: first the tables of each, then their additions. -/
def compileModels (models : List ContentModel) (components : Components)
    (settings : BuildSettings) : Compiled Compilation := do
  let own ← compileOwn models components settings
  let additions ← compileAdditions models components settings
  return .ofParts models own additions

end ContentSchema
