import ContentSchema.Failure
import ContentSchema.Json.Reader
import ContentSchema.Schema.Size

/-!
# Stored rows

Rows of the tables in which definitions are stored.  A row is an object; its column `definition`
holds a definition or the text of one.
-/

namespace ContentSchema

namespace Value

/-- The members of a collection: the items of a list, the keys of an object, the characters of a
text.  What does not count as present has none. -/
def members (v : Value) : Outcome (List Value) :=
  if !v.isTruthy then .ok []
  else
    match v with
    | list items => .ok items
    | object entries => .ok (entries.map fun e => text e.1)
    | text s => .ok (s.toList.map fun c => text (String.singleton c))
    | v => .error (.slip (.notCollection v.kindName))

end Value

/-- What gives the rows of a table by its name.  It may say that rows cannot be read, fail with an
error of its own or give up the run. -/
structure RowSource where
  /-- A collection of rows. -/
  find : String → Outcome Value

/-- The rows of a table in order. -/
def RowSource.rows (source : RowSource) (table : String) : Outcome (List Value) := do
  (← source.find table).members

namespace Row

/-- The text of a column, if the row has a value there and the value can be written. -/
def text? (key : String) (row : Value) : Outcome (Option String) :=
  match row.get? key with
  | none | some .null => .ok none
  | some v => if v.holdsOversized then .error (.slip .oversizedNumber) else .ok (some v.display)

/-- The column that holds the definition. -/
def definitionColumn : String := "definition"

/-- The text of a definition, read. -/
def readPayload : Value → Except PayloadFault Value
  | .null => .error .missing
  | .object entries => .ok (.object entries)
  | .list items => .ok (.list items)
  | .text s => (Json.read s.toList).mapError fun
    | .halfPair => .inexpressible
    | e => .unreadable (e.message s.toList)
  | v => .error (.notText v.kindName)

/-- The failure that a row holds no definition, which names the row by two of its columns. -/
def payloadFailure (row : Value) (fault : PayloadFault) : Failure :=
  let named : Outcome Failure := do return .payload (← text? "slug" row) (← text? "id" row) fault
  match named with
  | .ok failure | .error failure => failure

/-- The definition that a row holds. -/
def decode (row : Value) : Outcome Value :=
  match row with
  | .object _ =>
    match readPayload ((row.get? definitionColumn).getD .null) with
    | .ok raw => .ok raw
    | .error .inexpressible => .error (.slip .inexpressible)
    | .error fault => .error (payloadFailure row fault)
  | v => .error (.slip (.notRow v.kindName))

end Row

end ContentSchema
