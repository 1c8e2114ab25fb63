import ContentSchema.Schema.Basic

/-!
# Merging tables

Tables keyed by their names.  A name that occurs again keeps its first place and takes the last
table; each repetition is a collision.
-/

namespace ContentSchema

/-- Puts a table in the place of the one with its name, or at the end if there is none. -/
def putTable (tables : List Table) (t : Table) : List Table :=
  if tables.any (·.name == t.name) then tables.map fun u => if u.name == t.name then t else u
  else tables ++ [t]

/-- The names that occurred before, one for each repetition; `seen` holds the names so far. -/
def collisionsFrom (seen : List String) : List Table → List String
  | [] => []
  | t :: ts =>
    (if t.name ∈ seen then [t.name] else []) ++ collisionsFrom (t.name :: seen) ts

/-- External tables and generated ones, keyed by name, and the names of the collisions. -/
def mergeTables (external generated : List Table) : List Table × List String :=
  let all := external ++ generated
  (all.foldl putTable [], collisionsFrom [] all)

end ContentSchema
