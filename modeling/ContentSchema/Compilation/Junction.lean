import ContentSchema.Compilation.Field

/-!
# Junction tables

A relation from many rows to many becomes a table of its own, with an identifier, an order and the
two keys that it joins.  Deleting a row of the target always deletes its junctions; on the side of
the owner the field decides.
-/

namespace ContentSchema

/-- What happens to the junctions of a deleted owner. -/
def CascadePolicy.ownerAction : CascadePolicy → ReferentialAction
  | cascade => .cascade
  | restrict | setNull => .restrict

namespace Field

/-- The relation of a field that leads from many rows to many. -/
def manyToMany? (f : Field) : Option RelationConfig :=
  match f.relation? with
  | some c => if c.cardinality = .manyToMany then some c else none
  | none => none

/-- The junction table of a field on the table `owner`. -/
def junctionTable (f : Field) (owner : String) (settings : BuildSettings) : Compiled Table :=
  match f.manyToMany? with
  | none => .error (.notManyToMany f.key)
  | some c => do
    let target := settings.targetName c.target
    let ownerKey := Naming.foreignKeyName owner
    let targetKey := Naming.foreignKeyName target
    let toOwner ← Column.backRelation owner ownerKey c.cascade.ownerAction
    let toTarget ← Column.backRelation target targetKey .cascade
    compiled <| Table.make
      { name := Naming.junctionTableName owner target settings.convention
        columns := [
          Column.id, Column.string ownerKey, Column.string targetKey, Column.order,
          Column.createdAt, toOwner, toTarget]
        indexes := [[ownerKey], [targetKey]]
        unique := [[ownerKey, targetKey]]
        mapName := none }

end Field

end ContentSchema
