import ContentSchema.Number.Double

/-!
# Values

The tree in which definitions, rows and configurations arrive before anything about their shape is
known: what a JSON or YAML document can hold.  Objects keep the order of their keys; whole numbers
and doubles stay apart.
-/

namespace ContentSchema

/-- A value of unknown shape. -/
inductive Value where
  /-- Nothing. -/
  | null
  /-- A truth value. -/
  | bool (b : Bool)
  /-- A whole number of any size. -/
  | int (n : Int)
  /-- A double precision number. -/
  | float (x : Double)
  /-- A text. -/
  | text (s : String)
  /-- A calendar date, or a moment if `timed`, kept as it is shown. -/
  | stamp (timed : Bool) (shown : String)
  /-- A list. -/
  | list (items : List Value)
  /-- Keys with their values. -/
  | object (entries : List (String × Value))
deriving Repr, Inhabited, BEq

/-- The entries of an object. -/
abbrev Entries := List (String × Value)

namespace Entries

/-- The value of a key, if the key occurs. -/
def find? (entries : Entries) (key : String) : Option Value :=
  (List.find? (fun e => e.1 == key) entries).map (·.2)

/-- Whether a key occurs. -/
def has (entries : Entries) (key : String) : Bool := entries.any fun e => e.1 == key

/-- Binds a key, in its place if it occurs and at the end otherwise. -/
def insert (entries : Entries) (key : String) (value : Value) : Entries :=
  if entries.has key then entries.map fun e => if e.1 == key then (key, value) else e
  else entries ++ [(key, value)]

/-- Binds the keys of a list one after another. -/
def insertAll (entries : Entries) (more : List (String × Value)) : Entries :=
  more.foldl (fun acc e => acc.insert e.1 e.2) entries

theorem has_iff_find?_isSome {entries : Entries} {key : String} :
    entries.has key = true ↔ (entries.find? key).isSome = true := by
  simp [has, find?]

end Entries

namespace Value

/-- The name of the kind of a value. -/
def kindName : Value → String
  | null => "NoneType"
  | bool _ => "bool"
  | int _ => "int"
  | float _ => "float"
  | text _ => "str"
  | stamp timed _ => if timed then "datetime" else "date"
  | list _ => "list"
  | object _ => "dict"

/-- Whether a value counts as present: neither nothing, false, zero nor empty. -/
def isTruthy : Value → Bool
  | null => false
  | bool b => b
  | int n => n != 0
  | float x => x.toInt? != some 0
  | text s => s != ""
  | stamp .. => true
  | list items => !items.isEmpty
  | object entries => !entries.isEmpty

/-- The entry of an object under a key; nothing if the value is no object or lacks the key. -/
def get? (key : String) : Value → Option Value
  | object entries => Entries.find? entries key
  | _ => none

/-- The text held by a text value. -/
def asText? : Value → Option String
  | text s => some s
  | _ => none

/-- The entries of an object. -/
def asObject? : Value → Option Entries
  | object entries => some entries
  | _ => none

/-- The items of a list. -/
def asList? : Value → Option (List Value)
  | list items => some items
  | _ => none

/-- A text or nothing. -/
def ofText? : Option String → Value
  | some s => text s
  | none => null

/-- A list of texts. -/
def ofTexts (items : List String) : Value := list (items.map text)

end Value

end ContentSchema
