import ContentSchema.Text.Utf8
import ContentSchema.Yaml.Cursor

/-!
# Words of a document

How the parts of a document that carry text are read: scalars in their five styles, the names of
anchors, tags and directives.  Each reader takes the cursor in front of its word and leaves it
behind.  Loops count down the characters that are left, which no loop can use up.
-/

namespace ContentSchema.Yaml

/-- A scalar whose tag promises what the scalar does not spell. -/
inductive Mistagged where
  /-- No truth value. -/
  | bool (text : String)
  /-- A number without a digit. -/
  | number
  /-- No date. -/
  | stamp
deriving DecidableEq, Repr

/-- Why a document cannot be read. -/
inductive Fault where
  /-- It is not well formed. -/
  | malformed
  /-- A whole number has too many digits. -/
  | tooManyDigits (count : Nat)
  /-- A part of a date does not exist. -/
  | noSuchDate (reason : String)
  /-- A scalar is not what its tag says, in a way that no reader looks out for. -/
  | mistagged (scalar : Mistagged)
  /-- It holds something that no value expresses. -/
  | inexpressible
deriving DecidableEq, Repr

/-- A reader of words. -/
abbrev Lex (α : Type) := StateT Cursor (Except Fault) α

namespace Lex

/-- Gives up. -/
def malformed {α : Type} : Lex α := throw .malformed

/-- The next character. -/
def peek : Lex Char := return (← get).peek

/-- Goes on behind the next character. -/
def advance : Lex Unit := modify Cursor.next

/-- Reads the characters of a class. -/
def takeWhile (p : Char → Bool) : Lex (List Char) := do
  let c ← get
  let found := c.rest.takeWhile p
  set (c.skip found.length)
  return found

/-- Reads characters of a class, at least one. -/
def takeSome (p : Char → Bool) : Lex (List Char) := do
  match ← takeWhile p with
  | [] => malformed
  | cs => return cs

/-- Reads the end of a line. -/
def lineBreak : Lex (List Char) := do
  let (found, c) := (← get).lineBreak
  set c
  return found

/-- Goes on if the next character is in a class. -/
def expect (p : Char → Bool) : Lex Unit := do
  unless p (← peek) do malformed

/-- Reads the rest of a line that may hold a comment only. -/
def emptyRest : Lex Unit := do
  let _ ← takeWhile (· == ' ')
  if (← peek) == '#' then
    let _ ← takeWhile fun c => !isLineEnd c
  expect isLineEnd
  let _ ← lineBreak

/-! ### Names, tags and directives -/

/-- Reads the name of an anchor behind its mark. -/
def anchorName : Lex String := do
  advance
  let name ← takeSome isNameChar
  expect fun c => isGap c || "?:,]\x7d%@`".toList.contains c
  return String.ofList name

/-- Characters of a tag's name, escapes apart. -/
def isTagChar (c : Char) : Bool := c.isAlphanum || "-;/?:@&=+$,_.!~*'()[]".toList.contains c

/-- The value of a digit in base sixteen. -/
def hexValue? (c : Char) : Option Nat :=
  if c.isDigit then some (c.toNat - 48)
  else if 'a' ≤ c ∧ c ≤ 'f' then some (c.toNat - 87)
  else if 'A' ≤ c ∧ c ≤ 'F' then some (c.toNat - 55)
  else none

/-- Reads a number of `n` digits in base sixteen. -/
def hexNumber : Nat → Nat → Lex Nat
  | 0, value => return value
  | n + 1, value => do
    match hexValue? (← peek) with
    | some digit => do
      advance
      hexNumber n (value * 16 + digit)
    | none => malformed

/-- Reads bytes that are written as escapes. -/
def escapedBytes : Nat → Lex (List UInt8)
  | 0 => return []
  | fuel + 1 => do
    if (← peek) == '%' then
      advance
      let byte ← hexNumber 2 0
      return byte.toUInt8 :: (← escapedBytes fuel)
    else return []

/-- Reads pieces of a tag's name. -/
def tagPieces : Nat → Lex (List Char)
  | 0 => return []
  | fuel + 1 => do
    if (← peek) == '%' then
      let bytes ← escapedBytes (← get).rest.length
      match Text.decode bytes with
      | .ok piece => return piece ++ (← tagPieces fuel)
      | .error _ => malformed
    else
      match ← takeWhile isTagChar with
      | [] => return []
      | piece => return piece ++ (← tagPieces fuel)

/-- Reads the name of a tag. -/
def tagName : Lex String := do
  match ← tagPieces ((← get).rest.length + 1) with
  | [] => malformed
  | name => return String.ofList name

/-- Reads the handle of a tag: an exclamation mark, or a name between two. -/
def tagHandle : Lex String := do
  expect (· == '!')
  advance
  if (← peek) == ' ' then return "!"
  else
    let name ← takeWhile isNameChar
    if (← peek) == '!' then
      advance
      return String.ofList ('!' :: name ++ ['!'])
    else malformed

/-- Reads a tag as its handle, if it has one, and its name. -/
def tag : Lex (Option String × String) := do
  let found ← match (← get).peekAt 1 with
    | '<' => do
      advance
      advance
      let name ← tagName
      expect (· == '>')
      advance
      pure (none, name)
    | c => do
      if isGap c then
        advance
        pure (none, "!")
      else
        let word := (← get).rest.tail.takeWhile fun c => !(c == ' ' || isLineEnd c)
        if word.contains '!' then
          let handle ← tagHandle
          pure (some handle, ← tagName)
        else
          advance
          pure (some "!", ← tagName)
  expect fun c => c == ' ' || isLineEnd c
  return found

/-- What a directive says. -/
inductive Directive where
  /-- The version of the format. -/
  | version (major : List Char)
  /-- What a tag handle stands for. -/
  | handle (handle stem : String)
  /-- Anything else. -/
  | other
deriving DecidableEq, Repr

/-- Reads a directive and the rest of its line. -/
def directive : Lex Directive := do
  advance
  let name ← takeSome isNameChar
  expect fun c => c == ' ' || isLineEnd c
  let found ←
    if name = "YAML".toList then do
      let _ ← takeWhile (· == ' ')
      let major ← takeSome Char.isDigit
      expect (· == '.')
      advance
      let _ ← takeSome Char.isDigit
      expect fun c => c == ' ' || isLineEnd c
      pure (.version major)
    else if name = "TAG".toList then do
      let _ ← takeWhile (· == ' ')
      let handle ← tagHandle
      expect (· == ' ')
      let _ ← takeWhile (· == ' ')
      let stem ← tagName
      expect fun c => c == ' ' || isLineEnd c
      pure (.handle handle stem)
    else do
      let _ ← takeWhile fun c => !isLineEnd c
      pure .other
  emptyRest
  return found

/-! ### Scalars between quotes -/

/-- What stands for a character behind a backslash. -/
def escapes : List (Char × Char) := [
  ('0', '\x00'), ('a', '\x07'), ('b', '\x08'), ('t', '\x09'), ('\t', '\x09'), ('n', '\n'),
  ('v', '\x0b'), ('f', '\x0c'), ('r', '\r'), ('e', '\x1b'), (' ', ' '), ('"', '"'), ('\\', '\\'),
  ('/', '/'), ('N', '\x85'), ('_', '\xa0'), ('L', '\u2028'), ('P', '\u2029')]

/-- How many digits follow a letter behind a backslash. -/
def escapeDigits? (c : Char) : Option Nat :=
  if c = 'x' then some 2 else if c = 'u' then some 4 else if c = 'U' then some 8 else none

/-- Reads the empty lines between the lines of a quoted scalar, and blanks in front of the next
one. -/
def quotedBreaks : Nat → Lex (List Char)
  | 0 => return []
  | fuel + 1 => do
    if (← get).atSeparator then malformed
    let _ ← takeWhile fun c => c == ' ' || c == '\t'
    match ← lineBreak with
    | [] => return []
    | found => return found ++ (← quotedBreaks fuel)

/-- What a break between lines leaves in a scalar: a space if no empty line follows. -/
def folded (ending breaks : List Char) : List Char :=
  if ending ≠ ['\n'] then ending ++ breaks
  else if breaks.isEmpty then [' ']
  else breaks

/-- Reads an escape behind its backslash. -/
def escape : Lex (List Char) := do
  let c ← peek
  match escapes.lookup c with
  | some meant => do
    advance
    return [meant]
  | none =>
    match escapeDigits? c with
    | some digits => do
      advance
      let n ← hexNumber digits 0
      if 0x110000 ≤ n then malformed
      -- half of a surrogate pair is no character
      else if 0xD800 ≤ n && n < 0xE000 then throw .inexpressible
      else return [Char.ofNat n]
    | none =>
      if isBreak c then do
        let _ ← lineBreak
        quotedBreaks ((← get).rest.length + 1)
      else malformed

/-- Reads a scalar between quotes, up to the closing one; `double` says which quotes. -/
def quotedBody (double : Bool) : Nat → Lex (List Char)
  | 0 => malformed
  | fuel + 1 => do
    let c ← peek
    if c == (if double then '"' else '\'') then
      advance
      -- two single quotes in a row stand for one
      if !double && (← peek) == '\'' then
        advance
        return '\'' :: (← quotedBody double fuel)
      else return []
    else if double && c == '\\' then
      advance
      let piece ← escape
      return piece ++ (← quotedBody double fuel)
    else if isGap c then
      let blanks ← takeWhile fun c => c == ' ' || c == '\t'
      if (← get).rest.isEmpty then malformed
      else if isBreak (← peek) then
        let ending ← lineBreak
        let breaks ← quotedBreaks ((← get).rest.length + 1)
        return folded ending breaks ++ (← quotedBody double fuel)
      else return blanks ++ (← quotedBody double fuel)
    else
      advance
      return c :: (← quotedBody double fuel)

/-- Reads a scalar between quotes. -/
def quoted (double : Bool) : Lex String := do
  advance
  return String.ofList (← quotedBody double ((← get).rest.length + 1))

/-! ### Scalars without quotes -/

/-- Reads the empty lines between the lines of a plain scalar, and blanks in front of the next one;
`none` where a document ends. -/
def plainBreaks : Nat → Lex (Option (List Char))
  | 0 => return some []
  | fuel + 1 => do
    let _ ← takeWhile (· == ' ')
    match ← lineBreak with
    | [] => return some []
    | found => do
      if (← get).atSeparator then return none
      else return (← plainBreaks fuel).map (found ++ ·)

/-- Reads the blanks behind a word of a plain scalar, and whether a line ended among them. -/
def plainSpaces : Lex (List Char × Bool) := do
  let blanks ← takeWhile (· == ' ')
  if isBreak (← peek) then
    let ending ← lineBreak
    if (← get).atSeparator then return ([], true)
    else
      match ← plainBreaks ((← get).rest.length + 1) with
      | none => return ([], true)
      | some breaks => return (folded ending breaks, true)
  else return (blanks, false)

/-- The length of the next word of a plain scalar. -/
def plainLength (flow : Bool) : List Char → Nat
  | [] => 0
  | c :: cs =>
    let ahead := cs.head?.getD endMark
    -- a gap ends the word, and so does a colon in front of one
    if isGap c || (c == ':' && (isGap ahead || (flow && ",[]\x7b\x7d".toList.contains ahead))) ||
        (flow && ",?[]\x7b\x7d".toList.contains c) then 0
    else plainLength flow cs + 1

/-- Reads a plain scalar whose lines begin at a column or behind it, and whether a line ended in
the blanks behind it. -/
def plainBody (flow : Bool) (column : Int) : Nat → Lex (List Char × Bool)
  | 0 => return ([], false)
  | fuel + 1 => do
    let c ← get
    let length := plainLength flow c.rest
    if c.peek == '#' || length == 0 then return ([], false)
    else
      set (c.skip length)
      let word := c.rest.take length
      let (spaces, ended) ← plainSpaces
      let c ← get
      -- a comment ends the scalar, and so does a line that is not indented as its block
      if spaces.isEmpty || c.peek == '#' || (!flow && (c.column : Int) < column) then
        return (word, ended)
      else
        let more := c.peek != '#' && plainLength flow c.rest != 0
        if more then
          let (tail, ended) ← plainBody flow column fuel
          return (word ++ spaces ++ tail, ended)
        else return (word, ended)

/-- Reads a plain scalar below an indentation. -/
def plain (flow : Bool) (indent : Int) : Lex (String × Bool) := do
  let (text, ended) ← plainBody flow (indent + 1) ((← get).rest.length + 1)
  return (String.ofList text, ended)

/-! ### Scalars that are blocks of lines -/

/-- What becomes of the line ends behind a block: one, none or all. -/
inductive Chomping where
  | clip | strip | keep
deriving DecidableEq, Repr

/-- Reads how line ends are treated. -/
def chomping? : Lex (Option Chomping) := do
  match ← peek with
  | '+' => do
    advance
    return some .keep
  | '-' => do
    advance
    return some .strip
  | _ => return none

/-- Reads a digit that says how far a block is indented. -/
def increment? : Lex (Option Nat) := do
  let c ← peek
  if c == '0' then malformed
  else if c.isDigit then
    advance
    return some (c.toNat - 48)
  else return none

/-- Reads what follows the mark of a block. -/
def blockHeader : Lex (Chomping × Option Nat) := do
  -- the two parts of the header come in either order
  let first ← chomping?
  let increment ← increment?
  let second ← if first.isNone && increment.isSome then chomping? else pure none
  expect fun c => c == ' ' || isLineEnd c
  emptyRest
  return ((first.or second).getD .clip, increment)

/-- Reads the empty lines in front of a block and finds its indentation: that of its widest line of
blanks. -/
def blockIndent (widest : Nat) : Nat → Lex (List Char × Nat)
  | 0 => return ([], widest)
  | fuel + 1 => do
    if (← peek) == ' ' then
      advance
      blockIndent (max widest (← get).column) fuel
    else
      match ← lineBreak with
      | [] => return ([], widest)
      | found => do
        let (more, widest) ← blockIndent widest fuel
        return (found ++ more, widest)

/-- Reads spaces up to a column. -/
def spacesTo (column : Int) : Nat → Lex Unit
  | 0 => return
  | fuel + 1 => do
    let c ← get
    if (c.column : Int) < column && c.peek == ' ' then
      advance
      spacesTo column fuel

/-- Reads empty lines and the indentation of the line behind them. -/
def blockBreaks (indent : Int) : Nat → Lex (List Char)
  | 0 => return []
  | fuel + 1 => do
    spacesTo indent (← get).rest.length
    match ← lineBreak with
    | [] => return []
    | found => return found ++ (← blockBreaks indent fuel)

/-- Whether a line of a block begins here. -/
def atBlockLine (indent : Int) : Lex Bool := do
  let c ← get
  return (c.column : Int) == indent && !c.rest.isEmpty

/-- Reads the lines of a block; gives their text, the end of the last one and the empty lines behind
it. -/
def blockLines (isFolded : Bool) (indent : Int) (breaks : List Char) :
    Nat → Lex (List Char × List Char × List Char)
  | 0 => return ([], [], breaks)
  | fuel + 1 => do
    let startsWithBlank := (fun c => c == ' ' || c == '\t') (← peek)
    let line ← takeWhile fun c => !isLineEnd c
    let ending ← lineBreak
    let after ← blockBreaks indent ((← get).rest.length + 1)
    if ← atBlockLine indent then
      let c ← peek
      -- the breaks beside a line that begins with a blank are kept
      let joins := isFolded && ending == ['\n'] && !startsWithBlank && !(c == ' ' || c == '\t')
      let between := if joins then (if after.isEmpty then [' '] else []) else ending
      let (text, ending, last) ← blockLines isFolded indent after fuel
      return (breaks ++ line ++ between ++ text, ending, last)
    else return (breaks ++ line, ending, after)

/-- Reads a block of lines below an indentation. -/
def block (isFolded : Bool) (indent : Int) : Lex String := do
  advance
  let (chomping, increment) ← blockHeader
  let least := max (indent + 1) 1
  let fuel := (← get).rest.length + 1
  let (breaks, indent) ← match increment with
    | none => do
      let (breaks, widest) ← blockIndent 0 fuel
      pure (breaks, max least widest)
    | some n => do
      let indent := least + n - 1
      pure (← blockBreaks indent fuel, indent)
  let (text, ending, after) ←
    if ← atBlockLine indent then blockLines isFolded indent breaks fuel
    else pure ([], [], breaks)
  return String.ofList <| match chomping with
    | .strip => text
    | .clip => text ++ ending
    | .keep => text ++ ending ++ after

end Lex

end ContentSchema.Yaml
