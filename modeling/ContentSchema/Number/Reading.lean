import ContentSchema.Number.Decimal
import ContentSchema.Text.Blank
import ContentSchema.Text.Digit

/-!
# Reading numbers

Texts that spell whole numbers and doubles.  Long numbers have a limit on their digits.
-/

namespace ContentSchema

/-- The most digits that a whole number may be spelled with. -/
def maxDigits : Nat := 4300

/-- The message about a whole number with too many digits. -/
def digitLimitMessage (count : Nat) : String :=
  "Exceeds the limit (" ++ toString maxDigits ++ " digits) for integer string conversion: value has "
    ++ toString count ++
    " digits; use sys.set_int_max_str_digits() to increase the limit"

/-- The message about a whole number that has too many digits to be written. -/
def digitWriteLimitMessage : String :=
  "Exceeds the limit (" ++ toString maxDigits ++
    " digits) for integer string conversion; use sys.set_int_max_str_digits() to increase the limit"

/-- The number that ASCII digits spell. -/
def natOfDigits (ds : List Char) : Nat := ds.foldl (fun n c => n * 10 + (c.toNat - 48)) 0

/-- A sign and the rest of a text; no sign counts as plus. -/
def takeSign : List Char → Bool × List Char
  | '-' :: cs => (true, cs)
  | '+' :: cs => (false, cs)
  | cs => (false, cs)

/-- The exponent behind a decimal: nothing, or the letter `e` with signed digits. -/
def exponentOf? : List Char → Option Int
  | [] => some 0
  | c :: cs =>
    let (negative, ds) := takeSign cs
    if (c = 'e' ∨ c = 'E') ∧ !ds.isEmpty ∧ ds.all Char.isDigit then
      some (if negative then -(natOfDigits ds : Int) else natOfDigits ds)
    else none

/-- The double that digits, a point among them or not, and an exponent spell. -/
def unsignedDouble? (negative : Bool) (cs : List Char) : Option Double :=
  let (whole, rest) := cs.span Char.isDigit
  let (fraction, rest) := match rest with
    | '.' :: r => r.span Char.isDigit
    | _ => ([], rest)
  if whole.isEmpty && fraction.isEmpty then none
  else (exponentOf? rest).map fun e =>
    let ds := whole ++ fraction
    Double.ofDecimal negative (natOfDigits ds) ds.length (e - fraction.length)

/-- The double that a text spells, words for infinity and no number included. -/
def readDouble? (cs : List Char) : Option Double :=
  let (negative, rest) := takeSign cs
  let word := String.ofList (rest.map Char.toLower)
  if word = "inf" ∨ word = "infinity" then some (.infinity negative)
  else if word = "nan" then some .nan
  else unsignedDouble? negative rest

/-- A text without single underscores between other characters; `none` where one stands at an end
or beside another one, or where there is none. -/
def withoutUnderscores? (cs : List Char) : Option (List Char) :=
  if cs.head? = some '_' ∨ cs.getLast? = some '_' ∨ '_' ∉ cs ∨ Text.occursIn ['_', '_'] cs then none
  else some (cs.filter (· ≠ '_'))

/-- The double that a text spells, blanks around it and underscores between digits allowed. -/
def readLooseDouble? (s : String) : Option Double :=
  let trim := fun cs => Text.dropEndWhile Text.isWhiteSpace (cs.dropWhile Text.isWhiteSpace)
  match readDouble? (trim s.toList) with
  | some x => some x
  | none => (withoutUnderscores? s.toList).bind fun cs => readDouble? (trim cs)

/-- Drops the zeros at the start of a number, and underscores among them, but not the last zero. -/
def dropLeadingZeros? : List Char → Option (List Char)
  | '0' :: cs => go '0' cs
  | c :: cs => if c = '-' ∨ (c.isDigit ∧ c ≠ '0') then some (c :: cs) else none
  | [] => none
where
  go (last : Char) : List Char → Option (List Char)
    | [] => some [last]
    | c :: cs =>
      if c = '0' ∨ c = '_' then go c cs
      else if c.isDigit then some (c :: cs)
      else if c = '.' then some (last :: c :: cs)
      else none

/-- A number without a point and at least one zero at its end; `none` if other digits follow the
point. -/
def dropZeroPlaces? (cs : List Char) : Option (List Char) :=
  let (whole, rest) := cs.span (· ≠ '.')
  match rest with
  | [] => some whole
  | _ :: places => if !places.isEmpty ∧ places.all (· = '0') then some whole else none

/-- The whole number that a text spells: blanks around it, a sign, zeros in front, underscores
between digits and a point with zeros are allowed. -/
def readLooseInt? (s : String) : Option Int := do
  let cs := Text.dropEndWhile Text.isWhiteSpace (s.toList.dropWhile Text.isWhiteSpace)
  let cs ← match cs with
    | '+' :: '-' :: _ => none
    | '+' :: rest => some rest
    | _ => some cs
  let cs ← dropLeadingZeros? cs
  let cs ← dropZeroPlaces? cs
  let cs := (withoutUnderscores? cs).getD cs
  let (negative, ds) := match cs with
    | '-' :: ds => (true, ds)
    | _ => (false, cs)
  if !ds.isEmpty ∧ ds.all Char.isDigit then
    some (if negative then -(natOfDigits ds : Int) else natOfDigits ds)
  else none

end ContentSchema
