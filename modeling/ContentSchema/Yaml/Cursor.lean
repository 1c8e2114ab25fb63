/-!
# Positions in a document

The classes of characters that structure a document, and a cursor that knows what is still to be
read and where it stands: how far from the start, in which line and in which column.
-/

namespace ContentSchema.Yaml

/-- Characters that end a line. -/
def isBreak (c : Char) : Bool :=
  c == '\n' || c == '\r' || c == '\x85' || c == '\u2028' || c == '\u2029'

/-- What stands for the end of the document when the cursor looks ahead. -/
def endMark : Char := '\x00'

/-- The end of a line or of the document. -/
def isLineEnd (c : Char) : Bool := c == endMark || isBreak c

/-- Characters behind which a word is over. -/
def isGap (c : Char) : Bool := c == ' ' || c == '\t' || isLineEnd c

/-- Characters that a document may hold. -/
def isAllowed (c : Char) : Bool :=
  let n := c.toNat
  n == 9 || n == 10 || n == 13 || (0x20 ≤ n && n ≤ 0x7E) || n == 0x85 ||
    (0xA0 ≤ n && n ≤ 0xD7FF) || (0xE000 ≤ n && n ≤ 0xFFFD) || 0x10000 ≤ n

/-- Characters of names: ASCII letters, digits, hyphens and underscores. -/
def isNameChar (c : Char) : Bool := c.isAlphanum || c == '-' || c == '_'

/-- The mark that may open a text and takes no column. -/
def byteOrderMark : Char := '\ufeff'

/-- What is still to be read, and where. -/
structure Cursor where
  /-- The characters ahead. -/
  rest : List Char
  /-- How many characters have been read. -/
  index : Nat
  /-- How many lines have ended. -/
  line : Nat
  /-- How many characters of this line have been read. -/
  column : Nat
deriving Repr

namespace Cursor

/-- The start of a document. -/
def start (document : List Char) : Cursor := ⟨document, 0, 0, 0⟩

/-- The character that is `n` places ahead. -/
def peekAt (c : Cursor) (n : Nat) : Char := c.rest[n]?.getD endMark

/-- The next character. -/
def peek (c : Cursor) : Char := c.rest.head?.getD endMark

/-- The cursor behind the next character. -/
def next (c : Cursor) : Cursor :=
  match c.rest with
  | [] => c
  | ch :: rest =>
    if isBreak ch && !(ch == '\r' && rest.head? == some '\n') then
      ⟨rest, c.index + 1, c.line + 1, 0⟩
    else ⟨rest, c.index + 1, c.line, if ch == byteOrderMark then c.column else c.column + 1⟩

/-- The cursor behind `n` characters. -/
def skip (c : Cursor) : Nat → Cursor
  | 0 => c
  | n + 1 => c.next.skip n

/-- The cursor behind the characters of a class. -/
def skipWhile (c : Cursor) (p : Char → Bool) : Cursor := c.skip (c.rest.takeWhile p).length

/-- The cursor behind spaces. -/
def skipSpaces (c : Cursor) : Cursor := c.skipWhile (· == ' ')

/-- Whether a line of three hyphens or three points begins here, which separates documents. -/
def atSeparator (c : Cursor) : Bool :=
  (['-', '-', '-'].isPrefixOf c.rest || ['.', '.', '.'].isPrefixOf c.rest) && isGap (c.peekAt 3)

/-- Reads the end of a line as the character that it counts as; nothing elsewhere. -/
def lineBreak (c : Cursor) : List Char × Cursor :=
  let ch := c.peek
  if ch == '\r' && c.peekAt 1 == '\n' then (['\n'], c.skip 2)
  else if ch == '\r' || ch == '\n' || ch == '\x85' then (['\n'], c.next)
  else if ch == '\u2028' || ch == '\u2029' then ([ch], c.next)
  else ([], c)

end Cursor

end ContentSchema.Yaml
