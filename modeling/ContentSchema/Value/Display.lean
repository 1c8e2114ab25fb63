import ContentSchema.Number.Reading
import ContentSchema.Text.Printable
import ContentSchema.Text.Quoted
import ContentSchema.Value

/-!
# Display form of values

How a value is shown inside messages and generator options: `None`, `True`, `3.0`, lists in
brackets, objects in braces.  A text stands for itself on its own and is quoted inside a list or an
object; the quotes are single ones unless the text has single quotes and no double ones.  A date
also stands for itself on its own, and is spelled by its parts inside a list or an object.
-/

namespace ContentSchema

namespace Text

/-- How a character is shown inside the quotes `quote`. -/
def displayChar (quote c : Char) : List Char :=
  if c = quote ∨ c = '\\' then ['\\', c]
  else if c = '\n' then ['\\', 'n']
  else if c = '\r' then ['\\', 'r']
  else if c = '\t' then ['\\', 't']
  else if isPrintable c then [c]
  else if c.toNat < 0x100 then '\\' :: 'x' :: hexDigits 2 c.toNat
  else if c.toNat < 0x10000 then '\\' :: 'u' :: hexDigits 4 c.toNat
  else '\\' :: 'U' :: hexDigits 8 c.toNat

/-- A text as it is shown inside a list or an object. -/
def displayQuoted (cs : List Char) : List Char :=
  let quote := if '\'' ∈ cs ∧ '"' ∉ cs then '"' else '\''
  quote :: cs.flatMap (displayChar quote) ++ [quote]

end Text

/-- The display form of a text inside a list, an object or a message. -/
def displayText (s : String) : String := String.ofList (Text.displayQuoted s.toList)

namespace Stamp

/-- Parts of a call with commas between them. -/
def displayParts (parts : List (List Char)) : List Char := List.intercalate ", ".toList parts

/-- A difference of times in minutes: its days, which are rounded down, and the seconds beyond
them. -/
def displayDelta (negative : Bool) (minutes : Nat) : List Char :=
  let seconds : Int := if negative then -(minutes * 60) else minutes * 60
  let part (name : String) (n : Int) : List (List Char) :=
    if n = 0 then [] else [name.toList ++ intText n]
  let parts := part "days=" (seconds / 86400) ++ part "seconds=" (seconds % 86400)
  "datetime.timedelta(".toList ++ (if parts.isEmpty then ['0'] else displayParts parts) ++ [')']

/-- A zone, of which the sign, two digits, a colon and two digits are left. -/
def displayZone : List Char → List (List Char)
  | [] => []
  | sign :: digits =>
    let minutes := natOfDigits (digits.take 2) * 60 + natOfDigits (digits.drop 3)
    let zone :=
      if minutes = 0 then "datetime.timezone.utc".toList
      else "datetime.timezone(".toList ++ displayDelta (sign = '-') minutes ++ [')']
    ["tzinfo=".toList ++ zone]

/-- A date, or a moment if it is timed, as it is shown inside a list or an object: by its parts, of
which seconds and what is below them are left out at the end where they are zero. -/
def display (timed : Bool) (shown : List Char) : List Char :=
  let number (start width : Nat) : Nat := natOfDigits ((shown.drop start).take width)
  let text (n : Nat) : List Char := intText n
  let date := [number 0 4, number 5 2, number 8 2]
  if timed then
    let (micro, zone) := match shown.drop 19 with
      | '.' :: rest => (natOfDigits (rest.take 6), rest.drop 6)
      | rest => (0, rest)
    let second := number 17 2
    let below := if micro ≠ 0 then [second, micro] else if second ≠ 0 then [second] else []
    let time := [number 11 2, number 14 2] ++ below
    "datetime.datetime(".toList ++ displayParts ((date ++ time).map text ++ displayZone zone) ++ [')']
  else "datetime.date(".toList ++ displayParts (date.map text) ++ [')']

end Stamp

namespace Value

mutual

/-- A value as it is shown inside a list or an object. -/
def displayNested : Value → List Char
  | null => "None".toList
  | bool b => (if b then "True" else "False").toList
  | int n => intText n
  | float x => x.text
  | text s => Text.displayQuoted s.toList
  | stamp timed shown => Stamp.display timed shown.toList
  | list items => '[' :: displayItems items ++ [']']
  | object entries => '\x7b' :: displayEntries entries ++ ['\x7d']

/-- Items separated by commas. -/
def displayItems : List Value → List Char
  | [] => []
  | [v] => displayNested v
  | v :: vs => displayNested v ++ ',' :: ' ' :: displayItems vs

/-- Entries separated by commas. -/
def displayEntries : List (String × Value) → List Char
  | [] => []
  | [(k, v)] => Text.displayQuoted k.toList ++ ':' :: ' ' :: displayNested v
  | (k, v) :: es =>
    Text.displayQuoted k.toList ++ ':' :: ' ' :: displayNested v ++ ',' :: ' ' :: displayEntries es

end

/-- A value as it is shown on its own. -/
def display : Value → String
  | text s | stamp _ s => s
  | v => String.ofList v.displayNested

end Value

/-- A list of texts in display form. -/
def displayTexts (items : List String) : String := (Value.ofTexts items).display

end ContentSchema
