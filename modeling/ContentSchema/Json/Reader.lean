import ContentSchema.Number.Reading
import ContentSchema.Value

/-!
# Reading JSON

JSON documents as values, with a precise position for what is wrong.  Beyond the standard the words
`NaN`, `Infinity` and `-Infinity` are numbers.  Of two equal keys the later one gives the value and
the earlier one the place.  An escaped surrogate without its partner is half a character, which no
text here holds: a document with one is not read.
-/

namespace ContentSchema.Json

/-- What is wrong with a document at some position. -/
inductive Cause where
  /-- A value should begin here. -/
  | expectingValue
  /-- A key should begin here. -/
  | expectingName
  /-- A colon should follow the key. -/
  | expectingColon
  /-- A comma or the end of the list or object should follow. -/
  | expectingComma
  /-- The document should have ended. -/
  | extraData
  /-- The text that starts here has no end. -/
  | unterminatedText
  /-- Four digits of base sixteen should follow. -/
  | badUnicodeEscape
  /-- No such escape. -/
  | badEscape
  /-- A control character inside a text. -/
  | controlCharacter
  /-- The document starts with a byte order mark. -/
  | byteOrderMark
deriving DecidableEq, Repr

/-- Why a document cannot be read. -/
inductive Error where
  /-- The fault `cause` is found where `remaining` characters are left. -/
  | fault (cause : Cause) (remaining : Nat)
  /-- A whole number has more digits than allowed. -/
  | tooManyDigits (count : Nat)
  /-- An escape stands for half of a surrogate pair. -/
  | halfPair
deriving DecidableEq, Repr

/-- What the fault is called. -/
def Cause.message : Cause → String
  | .expectingValue => "Expecting value"
  | .expectingName => "Expecting property name enclosed in double quotes"
  | .expectingColon => "Expecting ':' delimiter"
  | .expectingComma => "Expecting ',' delimiter"
  | .extraData => "Extra data"
  | .unterminatedText => "Unterminated string starting at"
  | .badUnicodeEscape => "Invalid \\uXXXX escape"
  | .badEscape => "Invalid \\escape"
  | .controlCharacter => "Invalid control character at"
  | .byteOrderMark => "Unexpected UTF-8 BOM (decode using utf-8-sig)"

/-- The message about an error in the document `source`, with line, column and offset. -/
def Error.message (source : List Char) : Error → String
  | .tooManyDigits count => digitLimitMessage count
  | .halfPair => "half of a surrogate pair"
  | .fault cause remaining =>
    let offset := source.length - remaining
    let before := source.take offset
    let line := before.count '\n' + 1
    let column := (before.reverse.takeWhile (· ≠ '\n')).length + 1
    cause.message ++ ": line " ++ toString line ++ " column " ++ toString column ++ " (char "
      ++ toString offset ++ ")"

/-- Blanks between tokens. -/
def isSpace (c : Char) : Bool := c == ' ' || c == '\t' || c == '\n' || c == '\r'

/-- A document without the blanks at its start. -/
def skipSpace (cs : List Char) : List Char := cs.dropWhile isSpace

/-- The value of a digit of base sixteen. -/
def hexValue? (c : Char) : Option Nat :=
  if c.isDigit then some (c.toNat - 48)
  else if 'a' ≤ c ∧ c ≤ 'f' then some (c.toNat - 87)
  else if 'A' ≤ c ∧ c ≤ 'F' then some (c.toNat - 55)
  else none

/-- The number that four digits of base sixteen spell. -/
def hexOf? (a b c d : Char) : Option Nat := do
  let a ← hexValue? a
  let b ← hexValue? b
  let c ← hexValue? c
  let d ← hexValue? d
  return ((a * 16 + b) * 16 + c) * 16 + d

/-- Whether a number is the first half of a surrogate pair. -/
def isHighSurrogate (n : Nat) : Bool := 0xD800 ≤ n && n < 0xDC00

/-- Whether a number is the second half of a surrogate pair. -/
def isLowSurrogate (n : Nat) : Bool := 0xDC00 ≤ n && n < 0xE000

/-- The character with a code of four digits, unless this is half of a pair. -/
def unitChar (n : Nat) : Except Error Char :=
  if isHighSurrogate n || isLowSurrogate n then throw .halfPair else return Char.ofNat n

/-- The character that a letter behind a backslash stands for. -/
def simpleEscape? (c : Char) : Option Char :=
  if c = '"' ∨ c = '\\' ∨ c = '/' then some c
  else if c = 'b' then some '\x08'
  else if c = 'f' then some '\x0c'
  else if c = 'n' then some '\n'
  else if c = 'r' then some '\r'
  else if c = 't' then some '\t'
  else none

/-- Reads the rest of a quoted text whose opening quote is found with `start` characters left.
`acc` holds the characters read so far, last one first. -/
def readText (start : Nat) (acc : List Char) :
    List Char → Except Error (List Char × List Char)
  | [] => throw (.fault .unterminatedText start)
  | '"' :: cs => return (acc.reverse, cs)
  | ['\\'] => throw (.fault .unterminatedText start)
  | '\\' :: 'u' :: a :: b :: c :: d :: e :: cs =>
    match hexOf? a b c d with
    | none => throw (.fault .badUnicodeEscape (cs.length + 6))
    | some high =>
      match e, cs with
      | '\\', 'u' :: a' :: b' :: c' :: d' :: z :: rest =>
        if isHighSurrogate high then
          match hexOf? a' b' c' d' with
          | none => throw (.fault .badUnicodeEscape (rest.length + 6))
          | some low =>
            if isLowSurrogate low then
              readText start
                (Char.ofNat (0x10000 + (high - 0xD800) * 0x400 + (low - 0xDC00)) :: acc)
                (z :: rest)
            else throw .halfPair
        else do
          -- the second escape is read again on its own
          readText start ((← unitChar high) :: acc)
            ('\\' :: 'u' :: a' :: b' :: c' :: d' :: z :: rest)
      | e, cs => do readText start ((← unitChar high) :: acc) (e :: cs)
  | '\\' :: 'u' :: cs => throw (.fault .badUnicodeEscape (cs.length + 1))
  | '\\' :: c :: cs =>
    match simpleEscape? c with
    | some d => readText start (d :: acc) cs
    | none => throw (.fault .badEscape (cs.length + 2))
  | c :: cs =>
    if c.toNat < 32 then throw (.fault .controlCharacter (cs.length + 1))
    else readText start (c :: acc) cs
termination_by cs => cs.length

/-- Digits behind a point, if there are any. -/
def readFraction : List Char → List Char × List Char
  | '.' :: cs =>
    let (ds, rest) := cs.span Char.isDigit
    if ds.isEmpty then ([], '.' :: cs) else ('.' :: ds, rest)
  | cs => ([], cs)

/-- An exponent, if there is one. -/
def readExponent : List Char → List Char × List Char
  | [] => ([], [])
  | c :: cs =>
    let (sign, digits) := match cs with
      | '-' :: r => (['-'], r)
      | '+' :: r => (['+'], r)
      | _ => ([], cs)
    let (ds, rest) := digits.span Char.isDigit
    if (c = 'e' ∨ c = 'E') ∧ !ds.isEmpty then (c :: sign ++ ds, rest) else ([], c :: cs)

/-- The digits before the point: a lone zero, or digits that do not start with one. -/
def readWhole : List Char → List Char × List Char
  | '0' :: cs => (['0'], cs)
  | cs => cs.span Char.isDigit

/-- Reads a number; `none` where none begins. -/
def readNumber (cs : List Char) : Option (Except Error (Value × List Char)) :=
  let (negative, unsigned) := match cs with
    | '-' :: rest => (true, rest)
    | _ => (false, cs)
  let (whole, rest) := readWhole unsigned
  if whole.isEmpty then none
  else
    let (fraction, rest) := readFraction rest
    let (power, rest) := readExponent rest
    if fraction.isEmpty && power.isEmpty then
      if maxDigits < whole.length then some (throw (.tooManyDigits whole.length))
      else
        let n : Int := natOfDigits whole
        some (return (.int (if negative then -n else n), rest))
    else
      (unsignedDouble? negative (whole ++ fraction ++ power)).map fun x => return (.float x, rest)

/-- The values that are spelled as words. -/
def wordValues : List (List Char × Value) := [
  ("null".toList, .null), ("true".toList, .bool true), ("false".toList, .bool false),
  ("NaN".toList, .float .nan), ("Infinity".toList, .float (.infinity false)),
  ("-Infinity".toList, .float (.infinity true))]

/-- Reads a word or a number. -/
def readScalar (cs : List Char) : Except Error (Value × List Char) :=
  match wordValues.findSome? fun (w, v) => (Text.dropStart? w cs).map fun rest => (v, rest) with
  | some found => return found
  | none => (readNumber cs).getD (throw (.fault .expectingValue cs.length))

mutual

/-- Reads one value. -/
def readValue : Nat → List Char → Except Error (Value × List Char)
  | 0, cs => throw (.fault .expectingValue cs.length)
  | fuel + 1, cs =>
    match cs with
    | '"' :: rest => do
      let (s, rest) ← readText cs.length [] rest
      return (.text (String.ofList s), rest)
    | '[' :: rest =>
      match skipSpace rest with
      | ']' :: rest => return (.list [], rest)
      | rest => do
        let (items, rest) ← readItems fuel rest
        return (.list items, rest)
    | '\x7b' :: rest =>
      match skipSpace rest with
      | '\x7d' :: rest => return (.object [], rest)
      | rest => do
        let (entries, rest) ← readEntries fuel [] rest
        return (.object entries, rest)
    | _ => readScalar cs

/-- Reads the items of a list up to its end. -/
def readItems : Nat → List Char → Except Error (List Value × List Char)
  | 0, cs => throw (.fault .expectingValue cs.length)
  | fuel + 1, cs => do
    let (v, rest) ← readValue fuel cs
    match skipSpace rest with
    | ']' :: rest => return ([v], rest)
    | ',' :: rest =>
      let (vs, rest) ← readItems fuel (skipSpace rest)
      return (v :: vs, rest)
    | rest => throw (.fault .expectingComma rest.length)

/-- Reads the entries of an object, added to those read before, up to its end. -/
def readEntries : Nat → Entries → List Char → Except Error (Entries × List Char)
  | 0, _, cs => throw (.fault .expectingValue cs.length)
  | fuel + 1, acc, cs =>
    match cs with
    | '"' :: rest => do
      let (key, rest) ← readText cs.length [] rest
      match skipSpace rest with
      | ':' :: rest =>
        let (v, rest) ← readValue fuel (skipSpace rest)
        let acc := Entries.insert acc (String.ofList key) v
        match skipSpace rest with
        | '\x7d' :: rest => return (acc, rest)
        | ',' :: rest => readEntries fuel acc (skipSpace rest)
        | rest => throw (.fault .expectingComma rest.length)
      | rest => throw (.fault .expectingColon rest.length)
    | _ => throw (.fault .expectingName cs.length)

end

/-- Reads a document.  Each value and each entry takes at least one character, so twice the length
of the document bounds the depth of the recursion. -/
def read (source : List Char) : Except Error Value :=
  if source.head? = some '\uFEFF' then throw (.fault .byteOrderMark source.length)
  else do
    let (v, rest) ← readValue (2 * source.length + 2) (skipSpace source)
    match skipSpace rest with
    | [] => return v
    | rest => throw (.fault .extraData rest.length)

end ContentSchema.Json
