import ContentSchema.Number.Reading
import ContentSchema.Schema.Basic
import ContentSchema.Text.Blank
import ContentSchema.Text.Word

/-!
# Attributes in schema text

The tail of a column's line is a row of attributes, each beginning with `@`.  `Attribute.split`
finds them, and the other functions here read those attributes that carry meaning.
-/

namespace ContentSchema

/-- Why a schema text cannot be read. -/
inductive SchemaError where
  /-- A default is a whole number with more digits than allowed. -/
  | tooManyDigits (count : Nat)
deriving DecidableEq, Repr

/-- The words for the error. -/
def SchemaError.message : SchemaError → String
  | tooManyDigits count => digitLimitMessage count

namespace Attribute

open Text (isBlank isWordChar strip dropStart?)

/-! ### Finding attributes -/

/-- Where the scan of a line stands. -/
inductive Scan where
  /-- Between attributes. -/
  | outside
  /-- In an attribute, inside `depth` parentheses, with what it consists of so far, last first. -/
  | inside (depth : Int) (current : List Char)
deriving Repr

/-- The attribute that the scan has reached the end of. -/
def Scan.flush : Scan → List (List Char)
  | outside => []
  | inside _ current =>
    let attr := strip current.reverse
    if attr.isEmpty then [] else [attr]

/-- Scans a line: an attribute begins with `@` and ends with the parenthesis that closes its group,
or before a blank outside of all parentheses. -/
def splitFrom : Scan → List Char → List (List Char)
  | scan, [] => scan.flush
  | .outside, c :: cs => splitFrom (if c = '@' then .inside 0 ['@'] else .outside) cs
  | .inside depth current, c :: cs =>
    if c = '(' then splitFrom (.inside (depth + 1) (c :: current)) cs
    else if c = ')' then
      if depth = 1 then (c :: current).reverse :: splitFrom .outside cs
      -- without a partner the depth falls below zero, and no blank ends the attribute any more
      else splitFrom (.inside (depth - 1) (c :: current)) cs
    else if isBlank c && depth == 0 then
      (Scan.inside depth current).flush ++ splitFrom .outside cs
    else splitFrom (.inside depth (c :: current)) cs

/-- The attributes of a line. -/
def split (line : List Char) : List (List Char) := splitFrom .outside line

/-! ### Defaults -/

/-- What stands between the parentheses of a default, on one line and not empty.  A line feed may
follow. -/
def defaultBody? (attr : List Char) : Option (List Char) := do
  let rest ← dropStart? "@default(".toList attr
  -- the end of the text is also in front of a line feed that ends it
  let body ← match rest.reverse with
    | ')' :: r => some r.reverse
    | '\n' :: ')' :: r => some r.reverse
    | _ => none
  if body.isEmpty || '\n' ∈ body then none else some body

/-- A minus sign and the rest of a text. -/
def takeMinus : List Char → Bool × List Char
  | '-' :: cs => (true, cs)
  | cs => (false, cs)

/-- Whether a text consists of digits, at least one. -/
def isDigits (cs : List Char) : Bool := !cs.isEmpty && cs.all Text.isDecimal

/-- The text between two equal quotes. -/
def unquoted? (cs : List Char) : Option (List Char) :=
  match cs with
  | q :: rest@(_ :: _) =>
    if (q = '"' ∨ q = '\'') ∧ rest.getLast? = some q then some rest.dropLast else none
  | _ => none

/-- The value that a default spells: a truth value, a number in plain notation, a quoted text, or
the text as it is. -/
def literalValue (value : List Char) : Except SchemaError ColumnDefault :=
  if value = "true".toList then return .bool true
  else if value = "false".toList then return .bool false
  else
    let (negative, digits) := takeMinus value
    let (whole, places) := digits.span (· ≠ '.')
    if isDigits digits then
      -- the only text that is refused and not kept as it is
      if maxDigits < digits.length then throw (.tooManyDigits digits.length)
      else
        let n : Int := (Text.naturalOf? digits).getD 0
        return .int (if negative then -n else n)
    else if isDigits whole && isDigits places.tail then
      let n := (Text.naturalOf? (whole ++ places.tail)).getD 0
      return .float (Double.ofDecimal negative n digits.length (-(places.tail.length : Int)))
    else return .text (String.ofList ((unquoted? value).getD value))

/-- The value of a default attribute, if the attribute is one. -/
def defaultValue? (attr : List Char) : Except SchemaError (Option ColumnDefault) :=
  match defaultBody? attr with
  | some body => some <$> literalValue (strip body)
  | none => return none

/-! ### Relations and physical names -/

/-- The first place in a text where something can be read. -/
def findFirst {α : Type} (read? : List Char → Option α) : List Char → Option α
  | [] => read? []
  | c :: cs =>
    match read? (c :: cs) with
    | some a => some a
    | none => findFirst read? cs

/-- A text up to the character `stop`, which must be there, and what follows it; not empty. -/
def upTo? (stop : Char) (cs : List Char) : Option (List Char × List Char) :=
  let (part, rest) := cs.span (· ≠ stop)
  match part, rest with
  | [], _ => none
  | _, [] => none
  | _, _ :: rest => some (part, rest)

/-- The words of a list that is separated by commas. -/
def names (cs : List Char) : List String :=
  ((cs.splitOnP (· = ',')).map strip).filterMap fun w =>
    if w.isEmpty then none else some (String.ofList w)

/-- The columns in brackets behind a title. -/
def columnsAt? (title : String) (cs : List Char) : Option (List Char) := do
  let rest ← dropStart? (title ++ ":").toList cs
  let rest ← dropStart? ['['] (rest.dropWhile isBlank)
  let (inner, _) ← upTo? ']' rest
  return inner

/-- The word behind a title. -/
def wordAt? (title : String) (cs : List Char) : Option (List Char) := do
  let rest ← dropStart? (title ++ ":").toList cs
  let word := (rest.dropWhile isBlank).takeWhile isWordChar
  if word.isEmpty then none else some word

/-- The text in double quotes at the start of a text, if it is not empty. -/
def quotedAt? (cs : List Char) : Option (List Char × List Char) := do
  let rest ← dropStart? ['"'] cs
  upTo? '"' rest

/-- The name of a relation, which stands first, with or without a title. -/
def relationName? (attr : List Char) : Option (List Char) := do
  let rest ← dropStart? "@relation(".toList attr
  let rest := rest.dropWhile isBlank
  let rest := match dropStart? "name:".toList rest with
    | some r => r.dropWhile isBlank
    | none => rest
  let (name, _) ← quotedAt? rest
  return name

/-- Reads the attribute of a relation.  What it does not say or says wrongly is left open. -/
def relation (attr : List Char) : Relation :=
  let columns (title : String) : List String :=
    match findFirst (columnsAt? title) attr with
    | some inner => names inner
    | none => []
  let action (title : String) : Option ReferentialAction :=
    (findFirst (wordAt? title) attr).bind fun w => ReferentialAction.ofName? (String.ofList w)
  { name := (relationName? attr).map String.ofList
    fields := columns "fields"
    references := columns "references"
    onDelete := action "onDelete"
    onUpdate := action "onUpdate" }

/-- The name in quotes behind the given text, which ends in an opening parenthesis. -/
def mapNameAt? (title : String) (cs : List Char) : Option String := do
  let rest ← dropStart? title.toList cs
  let (name, rest) ← quotedAt? rest
  let _ ← dropStart? [')'] rest
  return String.ofList name

end Attribute

end ContentSchema
