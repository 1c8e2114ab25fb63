import ContentSchema.Definition.Basic
import ContentSchema.Number.Reading
import ContentSchema.Reading.Checked

/-!
# Reading scalars

Texts, truth values and numbers out of values of unknown shape.  Reading is lenient: a number may
be spelled as a text, and several words and numbers stand for the truth values.
-/

namespace ContentSchema

/-- Reads values of unknown shape as members of a type. -/
abbrev Reader (α : Type) := Value → Checked α

namespace Reader

/-- Reads a text. -/
def text : Reader String
  | .text s => .accepted s
  | _ => .fail .notText

/-- Reads a text that is not empty. -/
def nonEmptyText : Reader String := fun v =>
  (text v).ensure fun s => if s = "" then some .emptyText else none

/-- Whether a text is a slug: a small ASCII letter, followed by small letters, digits, hyphens and
underscores. -/
def isSlug (s : String) : Bool :=
  match s.toList with
  | c :: cs => c.isLower && cs.all fun d => d.isLower || d.isDigit || d == '_' || d == '-'
  | [] => false

/-- Reads a slug. -/
def slug : Reader String := fun v =>
  (text v).ensure fun s => if isSlug s then none else some .notSlug

/-- The words for the truth values, which may be written in capital letters too. -/
def boolWords : List (String × Bool) := [
  ("0", false), ("off", false), ("f", false), ("false", false), ("n", false), ("no", false),
  ("1", true), ("on", true), ("t", true), ("true", true), ("y", true), ("yes", true)]

/-- The bound of whole numbers in words of 64 bits, of which one is the sign. -/
def wordBound : Int := 0x8000000000000000

/-- Whether a whole number fits into 64 bits with a sign. -/
def fitsWord (n : Int) : Bool := -wordBound ≤ n && n < wordBound

/-- The truth value that a whole number stands for. -/
def boolOfInt (n : Int) : Checked Bool :=
  if n = 0 then .accepted false else if n = 1 then .accepted true else .fail .unreadableBool

/-- Reads a truth value. -/
def bool : Reader Bool
  | .bool b => .accepted b
  | .text s =>
    match boolWords.lookup (String.ofList (s.toList.map Char.toLower)) with
    | some b => .accepted b
    | none => .fail .unreadableBool
  | .int n => if fitsWord n then boolOfInt n else .fail .notBool
  | .float x =>
    match x.toInt? with
    | some n => if fitsWord n && n != -wordBound then boolOfInt n else .fail .notBool
    | none => .fail .notBool
  | _ => .fail .notBool

/-- The fault of a text that should spell a whole number, or the number. -/
def intOfText (s : String) : Checked Int :=
  if maxDigits < s.utf8ByteSize then .fail .oversizedInt
  else match readLooseInt? s with
    | some n => .accepted n
    | none => .fail .unreadableInt

/-- Reads a whole number. -/
def int : Reader Int
  | .int n => .accepted n
  | .bool b => .accepted (if b then 1 else 0)
  | .text s => intOfText s
  | .float x =>
    if !x.isFinite then .fail .notFinite
    else match x.toInt? with
      | none => .fail .fractionalInt
      | some n => if fitsWord n && n != -wordBound then .accepted n else .fail .oversizedInt
  | _ => .fail .notInt

/-- Reads a whole number between two bounds. -/
def intBetween (least greatest : Int) : Reader Int := fun v =>
  (int v).ensure fun n =>
    if greatest < n then some (.tooLarge greatest)
    else if n < least then some (.tooSmall least) else none

/-- Reads a number.  What is a whole number already or spells one stays whole; if neither kind of
number can be read, the faults of both are reported. -/
def num : Reader Num
  | .int n => .accepted (Num.int n)
  | .float x => .accepted (Num.float x)
  | .bool b => .accepted (Num.int (if b then 1 else 0))
  | .text s =>
    match intOfText s with
    | .accepted n => .accepted (Num.int n)
    | .rejected issues =>
      match readLooseDouble? s with
      | some x => .accepted (Num.float x)
      | none => .rejected (issues.map (·.within "int") ++ [⟨["float"], .unreadableNumber⟩])
  | _ => .rejected [⟨["int"], .notInt⟩, ⟨["float"], .notNumber⟩]

/-- Reads one of several members, each given with its name. -/
def oneOf {α : Type} (members : List α) (name : α → String) : Reader α := fun v =>
  match v.asText?.bind fun s => members.find? fun m => name m == s with
  | some m => .accepted m
  | none => .fail (.notOneOf (members.map name))

/-- Reads a list of items. -/
def list {α : Type} (item : Reader α) : Reader (List α)
  | .list items => Checked.traverse (fun _ v => item v) 0 items
  | _ => .fail .notList

/-- Reads a list with at least one item. -/
def nonEmptyList {α : Type} (item : Reader α) : Reader (List α) := fun v =>
  (list item v).ensure fun items => if items.isEmpty then some .emptyList else none

/-- Reads either of two shapes; if neither fits, the issues of both are reported, each under the
name of its shape. -/
def either {α : Type} (firstName : String) (first : Reader α) (secondName : String)
    (second : Reader α) : Reader α := fun v =>
  match first v, second v with
  | .accepted a, _ => .accepted a
  | .rejected _, .accepted a => .accepted a
  | .rejected issues, .rejected more =>
    .rejected (issues.map (·.within firstName) ++ more.map (·.within secondName))

/-- Reads any value. -/
def any : Reader Value := .accepted

/-- Reads nothing as `none` and all else with a reader. -/
def nullable {α : Type} (read : Reader α) : Reader (Option α)
  | .null => .accepted none
  | v => (read v).map some

end Reader

end ContentSchema
