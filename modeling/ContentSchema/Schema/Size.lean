import ContentSchema.Number.Reading
import ContentSchema.Schema.Printer

/-!
# Numbers too long to be written

Whole numbers of any size can be computed with, but their text has a limit on its digits.  A schema
that would show a longer number has no text.
-/

namespace ContentSchema

/-- Whether a whole number has more digits than can be written. -/
def isOversized (n : Int) : Bool := maxDigits < (Decimal.digitsText n.natAbs).length

/-- Whether a number has more digits than can be written; doubles never have. -/
def Num.isOversized : Num → Bool
  | .int n => ContentSchema.isOversized n
  | .float _ => false

namespace Value

mutual

/-- Whether a value holds a number that is too long to be written. -/
def holdsOversized : Value → Bool
  | int n => isOversized n
  | list items => anyOversized items
  | object entries => anyEntryOversized entries
  | null | bool _ | float _ | text _ | stamp _ _ => false

/-- Whether one of several values holds a number that is too long. -/
def anyOversized : List Value → Bool
  | [] => false
  | v :: vs => holdsOversized v || anyOversized vs

/-- Whether one of several entries holds a number that is too long. -/
def anyEntryOversized : List (String × Value) → Bool
  | [] => false
  | (_, v) :: es => holdsOversized v || anyEntryOversized es

end

end Value

/-- Whether the rules of a field hold a number that is too long to be written. -/
def FieldRules.holdsOversized (r : FieldRules) : Bool :=
  [r.minLength, r.maxLength, r.min, r.max, r.minItems, r.maxItems].any fun n =>
    n.any Num.isOversized

/-- Whether a default is a number that is too long to be written. -/
def ColumnDefault.isOversized : ColumnDefault → Bool
  | int n => ContentSchema.isOversized n
  | _ => false

/-- Whether the lines of a column would show a number that is too long to be written.  A default
counts only if it is written at all. -/
def Column.holdsOversized (c : Column) : Bool :=
  c.rules.any (·.holdsOversized) ||
    (c.default.any (·.isOversized) && !c.hasAttribute "@default")

/-- Whether the text of a schema would show a number that is too long to be written. -/
def Schema.holdsOversized (s : Schema) : Bool :=
  s.generators.any (fun g => g.options.any fun e => e.2.holdsOversized) ||
    s.tables.any fun t => t.columns.any (·.holdsOversized)

end ContentSchema
