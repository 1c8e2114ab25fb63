import ContentSchema.Number.Reading
import ContentSchema.Text.Case
import ContentSchema.Value.Display
import ContentSchema.Yaml.Lexeme

/-!
# What scalars mean

A plain scalar is a truth value, a number, a date or nothing if it is spelled like one, and else a
text.  `kindOf` tells the spellings apart; `valueOf` reads a scalar as a value of a kind.
-/

namespace ContentSchema.Yaml

/-- What a scalar may be. -/
inductive Kind where
  /-- Nothing. -/
  | null
  /-- A truth value. -/
  | bool
  /-- A whole number. -/
  | int
  /-- A number with a point. -/
  | float
  /-- A date, with a time or without. -/
  | stamp
  /-- The key under which other mappings are merged. -/
  | merge
  /-- The key of a default, which means nothing as a value. -/
  | default
  /-- A text. -/
  | text
deriving DecidableEq, Repr

namespace Kind

/-! ### Spellings -/

/-- The words for nothing. -/
def nullWords : List String := ["", "~", "null", "Null", "NULL"]

/-- The words for truth values. -/
def boolWords : List (String × Bool) := [
  ("yes", true), ("Yes", true), ("YES", true), ("no", false), ("No", false), ("NO", false),
  ("true", true), ("True", true), ("TRUE", true), ("false", false), ("False", false),
  ("FALSE", false), ("on", true), ("On", true), ("ON", true), ("off", false), ("Off", false),
  ("OFF", false)]

/-- A text without a sign in front. -/
def unsigned (cs : List Char) : List Char := (takeSign cs).2

/-- Digits and underscores. -/
def isDigitOrGap (c : Char) : Bool := c.isDigit || c == '_'

/-- Whether all of a text, and at least one character, is in a class. -/
def someOf (p : Char → Bool) (cs : List Char) : Bool := !cs.isEmpty && cs.all p

/-- Whether a text is a digit with more digits and underscores behind it. -/
def isNumeral (cs : List Char) : Bool :=
  match cs with
  | c :: rest => c.isDigit && rest.all isDigitOrGap
  | [] => false

/-- The parts of a text between colons. -/
def colonParts (cs : List Char) : List (List Char) := cs.splitOnP (· == ':')

/-- Whether a text is a number below sixty, of one digit or two. -/
def isBelowSixty : List Char → Bool
  | [c] => c.isDigit
  | [c, d] => '0' ≤ c && c ≤ '5' && d.isDigit
  | _ => false

/-- Whether a text is a count of sixties: parts between colons, below sixty but for the first. -/
def isSixties (cs : List Char) : Bool :=
  match colonParts cs with
  | first :: rest@(_ :: _) => isNumeral first && rest.all isBelowSixty
  | _ => false

/-- Whether a text without sign is a whole number: to the base two, eight, ten or sixteen, or a
count of sixties. -/
def isWhole (cs : List Char) : Bool :=
  match cs with
  | ['0'] => true
  | '0' :: 'b' :: ds => someOf (fun c => c == '0' || c == '1' || c == '_') ds
  | '0' :: 'x' :: ds => someOf (fun c => (Lex.hexValue? c).isSome || c == '_') ds
  | '0' :: ds => someOf (fun c => ('0' ≤ c && c ≤ '7') || c == '_') ds
  | _ => isNumeral cs || isSixties cs

/-- Whether a text is empty or an exponent with a sign. -/
def isExponent : List Char → Bool
  | [] => true
  | e :: s :: ds => (e == 'e' || e == 'E') && (s == '-' || s == '+') && someOf Char.isDigit ds
  | _ => false

/-- Whether a text without sign has a point behind digits or behind sixties. -/
def isPointed (cs : List Char) : Bool :=
  let (whole, rest) := cs.span (· ≠ '.')
  match rest with
  | _ :: places =>
    let behind := places.dropWhile isDigitOrGap
    (isNumeral whole && isExponent behind) || (isSixties whole && behind.isEmpty)
  | [] => false

/-- Whether a text begins with a point and a digit. -/
def isFraction : List Char → Bool
  | '.' :: c :: rest => c.isDigit && isExponent (rest.dropWhile isDigitOrGap)
  | _ => false

/-- The words for infinity, without sign. -/
def infinityWords : List String := [".inf", ".Inf", ".INF"]

/-- The words for what is no number. -/
def nanWords : List String := [".nan", ".NaN", ".NAN"]

/-- Whether a text is a number with a point. -/
def isFloat (cs : List Char) : Bool :=
  isPointed (unsigned cs) || isFraction cs || infinityWords.contains (String.ofList (unsigned cs)) ||
    nanWords.contains (String.ofList cs)

/-! ### Dates -/

/-- The parts of a date and, if there is one, of a time. -/
structure Stamp where
  year : Nat
  month : Nat
  day : Nat
  /-- Hour, minute, second, the digits behind the second, and the zone as sign, hours, minutes. -/
  time : Option (Nat × Nat × Nat × List Char × Option (Bool × Nat × Nat))
deriving Repr

/-- Reads between `least` and `most` digits. -/
def digits? (least most : Nat) (cs : List Char) : Option (Nat × List Char) :=
  let ds := (cs.take most).takeWhile Char.isDigit
  if ds.length < least then none else some (natOfDigits ds, cs.drop ds.length)

/-- Passes over a character. -/
def char? (c : Char) (cs : List Char) : Option (List Char) :=
  match cs with
  | d :: rest => if c = d then some rest else none
  | [] => none

/-- Reads a zone: nothing, the letter for none, or a sign with hours and minutes. -/
def zone? (cs : List Char) : Option (Option (Bool × Nat × Nat)) := do
  let isSpace (c : Char) : Bool := c == ' ' || c == '\t'
  match cs.dropWhile isSpace with
  | [] => if cs.isEmpty then some none else none
  | ['Z'] => some (some (false, 0, 0))
  | s :: rest => do
    guard (s = '-' ∨ s = '+')
    let (hours, rest) ← digits? 1 2 rest
    match rest with
    | [] => some (some (s = '-', hours, 0))
    | _ => do
      let rest ← char? ':' rest
      let (minutes, rest) ← digits? 2 2 rest
      guard rest.isEmpty
      some (some (s = '-', hours, minutes))

/-- Reads a date.  A short one has two digits for month and day; with a time one may do. -/
def stamp? (cs : List Char) : Option Stamp := do
  let (year, rest) ← digits? 4 4 cs
  let rest ← char? '-' rest
  let (month, afterMonth) ← digits? 1 2 rest
  let rest ← char? '-' afterMonth
  let (day, afterDay) ← digits? 1 2 rest
  match afterDay with
  | [] => do
    guard (cs.length = 10)
    some ⟨year, month, day, none⟩
  | c :: more => do
    let rest ←
      if c = 'T' ∨ c = 't' then some more
      else if c = ' ' ∨ c = '\t' then
        some (afterDay.dropWhile fun c => c == ' ' || c == '\t')
      else none
    let (hour, rest) ← digits? 1 2 rest
    let rest ← char? ':' rest
    let (minute, rest) ← digits? 2 2 rest
    let rest ← char? ':' rest
    let (second, rest) ← digits? 2 2 rest
    let (places, rest) := match rest with
      | '.' :: r => r.span Char.isDigit
      | _ => ([], rest)
    let zone ← zone? rest
    some ⟨year, month, day, some (hour, minute, second, places, zone)⟩

/-- The kind that a plain scalar is spelled like. -/
def ofPlain (s : String) : Kind :=
  let cs := s.toList
  if nullWords.contains s then .null
  else if (boolWords.lookup s).isSome then .bool
  else if isFloat cs then .float
  else if isWhole (unsigned cs) then .int
  else if s = "<<" then .merge
  else if (stamp? cs).isSome then .stamp
  else if s = "=" then .default
  else .text

end Kind

/-! ### Values -/

namespace Scalar

/-- The number that digits to a base spell. -/
def numberIn (base : Nat) (ds : List Char) : Nat :=
  ds.foldl (fun n c => n * base + (Lex.hexValue? c).getD 0) 0

/-- The number that digits spell, if they are not too many. -/
def decimal (ds : List Char) : Except Fault Nat :=
  if ds.isEmpty || !ds.all Char.isDigit then .error .malformed
  else if maxDigits < ds.length then .error (.tooManyDigits ds.length)
  else .ok (natOfDigits ds)

/-- The number that parts of sixty make. -/
def sixties (parts : List (List Char)) : Except Fault Nat :=
  parts.foldlM (fun n part => do return n * 60 + (← decimal part)) 0

/-- The whole number that a text spells. -/
def int (s : String) : Except Fault Int := do
  let (negative, cs) := takeSign (s.toList.filter (· ≠ '_'))
  if cs.isEmpty then throw (.mistagged .number)
  let n ← match cs with
    | '0' :: 'b' :: ds => if ds.isEmpty then .error .malformed else .ok (numberIn 2 ds)
    | '0' :: 'x' :: ds => if ds.isEmpty then .error .malformed else .ok (numberIn 16 ds)
    | ['0'] => .ok 0
    | '0' :: ds =>
      if ds.all fun c => '0' ≤ c ∧ c ≤ '7' then .ok (numberIn 8 ds) else .error .malformed
    | _ => if cs.contains ':' then sixties (Kind.colonParts cs) else decimal cs
  return if negative then -(n : Int) else n

/-- The number with a point that a text spells. -/
def float (s : String) : Except Fault Double := do
  let text := (s.toList.filter (· ≠ '_')).map Char.toLower
  if text.isEmpty then throw (.mistagged .number)
  let (negative, cs) := takeSign text
  if cs = ".inf".toList then return .infinity negative
  else if cs = ".nan".toList then return .nan
  else if cs.contains ':' then
    let (whole, places) := cs.span (· ≠ '.')
    let places := places.tail
    let n ← sixties (Kind.colonParts whole)
    let digits := natOfDigits places
    return Double.ofDecimal negative (n * Nat.pow 10 places.length + digits)
      (toString (n * Nat.pow 10 places.length + digits)).length (-(places.length : Int))
  else
    match unsignedDouble? negative cs with
    | some x => return x
    | none => throw .malformed

/-- A number with at least `width` digits. -/
def padded (width n : Nat) : String :=
  let s := toString n
  String.ofList (List.replicate (width - s.length) '0') ++ s

/-- The number of days of a month. -/
def daysIn (year month : Nat) : Nat :=
  if month = 2 then
    if year % 4 = 0 ∧ (year % 100 ≠ 0 ∨ year % 400 = 0) then 29 else 28
  else if month = 4 ∨ month = 6 ∨ month = 9 ∨ month = 11 then 30
  else 31

/-- A time in its usual spelling. -/
def timeText (hour minute second : Nat) (places : List Char) (zone : Option (Bool × Nat × Nat)) :
    String :=
  let micro := (places ++ List.replicate 6 '0').take 6
  let fraction := if micro.all (· = '0') then "" else "." ++ String.ofList micro
  let behind := match zone with
    | none => ""
    | some (west, hours, minutes) =>
      let total := hours * 60 + minutes
      (if west ∧ total ≠ 0 then "-" else "+") ++ padded 2 (total / 60) ++ ":" ++ padded 2 (total % 60)
  padded 2 hour ++ ":" ++ padded 2 minute ++ ":" ++ padded 2 second ++ fraction ++ behind

/-- The message about a zone that is a day or more away. -/
def distantZone (west : Bool) (minutes : Nat) : String :=
  "offset must be a timedelta strictly between -timedelta(hours=24) and timedelta(hours=24), not " ++
    String.ofList (Stamp.displayDelta west minutes) ++ "."

/-- The date that a text spells. -/
def stamp (s : String) : Except Fault Value := do
  match Kind.stamp? s.toList with
  | none => throw (.mistagged .stamp)
  | some d =>
    if d.year = 0 then throw (.noSuchDate "year 0 is out of range")
    if d.month = 0 ∨ 12 < d.month then throw (.noSuchDate "month must be in 1..12")
    if d.day = 0 ∨ daysIn d.year d.month < d.day then
      throw (.noSuchDate "day is out of range for month")
    let date := padded 4 d.year ++ "-" ++ padded 2 d.month ++ "-" ++ padded 2 d.day
    match d.time with
    | none => return .stamp false date
    | some (hour, minute, second, places, zone) =>
      if 23 < hour then throw (.noSuchDate "hour must be in 0..23")
      if 59 < minute then throw (.noSuchDate "minute must be in 0..59")
      if 59 < second then throw (.noSuchDate "second must be in 0..59")
      if let some (west, hours, minutes) := zone then
        if 1440 ≤ hours * 60 + minutes then
          throw (.noSuchDate (distantZone west (hours * 60 + minutes)))
      return .stamp true (date ++ " " ++ timeText hour minute second places zone)

/-- A scalar read as a value of a kind. -/
def value (k : Kind) (s : String) : Except Fault Value :=
  match k with
  | .null => .ok .null
  | .bool =>
    match (Kind.boolWords.map fun e => (e.1.toLower, e.2)).lookup s.toLower with
    | some b => .ok (.bool b)
    | none => .error (.mistagged (.bool (String.ofList (Text.lower s.toList))))
  | .int => .int <$> int s
  | .float => .float <$> float s
  | .stamp => stamp s
  | .text => .ok (.text s)
  | .merge | .default => .error .malformed

end Scalar

end ContentSchema.Yaml
