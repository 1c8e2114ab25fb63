import ContentSchema.Yaml.Lexeme

/-!
# Tokens of a document

A document as a list of tokens, in which indentation has become starts and ends of blocks.  A word
may turn out to be a key only when the colon behind it is reached; until then its place among the
tokens is kept, so that the key token can be put in front of it.
-/

namespace ContentSchema.Yaml

/-- A token. -/
inductive Token where
  | directive (d : Lex.Directive)
  | documentStart
  | documentEnd
  | sequenceStart
  | mappingStart
  | blockEnd
  | flowSequenceStart
  | flowSequenceEnd
  | flowMappingStart
  | flowMappingEnd
  | entry
  | comma
  | key
  | value
  | reference (name : String)
  | anchor (name : String)
  | tag (handle : Option String) (name : String)
  | scalar (text : String) (plain : Bool)
deriving DecidableEq, Repr

/-- A place at which a key may have begun. -/
structure KeyPlace where
  /-- How many tokens stand in front of it. -/
  token : Nat
  /-- Whether it must be a key, as nothing else can stand there. -/
  required : Bool
  /-- How many characters stand in front of it. -/
  index : Nat
  /-- Its line. -/
  line : Nat
  /-- Its column. -/
  column : Nat
deriving Repr

/-- What the scanner knows between two tokens. -/
structure Scanner where
  /-- Where it stands. -/
  cursor : Cursor
  /-- How many flow collections are open. -/
  depth : Nat
  /-- The column of the innermost open block, one before the first for none. -/
  indent : Int
  /-- The columns of the blocks around it. -/
  outer : List Int
  /-- Whether a key may begin here. -/
  allowsKey : Bool
  /-- The places of possible keys by depth. -/
  keys : List (Nat × KeyPlace)
  /-- The tokens so far. -/
  tokens : Array Token

/-- A step of the scanner. -/
abbrev Scan (α : Type) := StateT Scanner (Except Fault) α

namespace Scan

/-- Adds a token. -/
def emit (t : Token) : Scan Unit := modify fun s => { s with tokens := s.tokens.push t }

/-- Runs a reader of words where the scanner stands. -/
def word {α : Type} (read : Lex α) : Scan α := do
  let s ← get
  let (a, c) ← (read.run s.cursor : Except Fault (α × Cursor))
  set { s with cursor := c }
  return a

/-- Passes over some characters. -/
def skip (n : Nat) : Scan Unit := modify fun s => { s with cursor := s.cursor.skip n }

/-- Says whether a key may begin next. -/
def allowKey (allowed : Bool) : Scan Unit := modify fun s => { s with allowsKey := allowed }

/-! ### Possible keys -/

/-- Forgets the possible keys that are no longer near: a key and its colon stand in one line. -/
def dropStaleKeys : Scan Unit := do
  let s ← get
  let isNear (k : KeyPlace) : Bool :=
    k.line == s.cursor.line && s.cursor.index - k.index ≤ 1024
  if s.keys.any fun e => !isNear e.2 && e.2.required then throw .malformed
  set { s with keys := s.keys.filter fun e => isNear e.2 }

/-- Forgets the possible key of this depth. -/
def dropKey : Scan Unit := do
  let s ← get
  if s.keys.any fun e => e.1 == s.depth && e.2.required then throw .malformed
  set { s with keys := s.keys.filter fun e => e.1 != s.depth }

/-- Remembers that a key may begin here. -/
def markKey : Scan Unit := do
  if (← get).allowsKey then
    dropKey
    modify fun s =>
      -- at the column of its block nothing but a key can follow
      let required := s.depth == 0 && s.indent == (s.cursor.column : Int)
      let k : KeyPlace :=
        ⟨s.tokens.size, required, s.cursor.index, s.cursor.line, s.cursor.column⟩
      { s with keys := (s.depth, k) :: s.keys }

/-! ### Indentation -/

/-- Ends the blocks that are indented further than a column. -/
def unwind (column : Int) : Scan Unit :=
  modify fun s =>
    -- indentation does not count inside of a flow collection
    if s.depth ≠ 0 then s
    else
      let rec go (indent : Int) (tokens : Array Token) : List Int → Int × List Int × Array Token
        | [] => (indent, [], tokens)
        | up :: rest =>
          if column < indent then go up (tokens.push .blockEnd) rest
          else (indent, up :: rest, tokens)
      let (indent, outer, tokens) := go s.indent s.tokens s.outer
      { s with indent := indent, outer := outer, tokens := tokens }

/-- Opens a block at a column if it is indented further than the innermost one; the token that
starts it goes in front of the token with the given number. -/
def openBlock (column place : Nat) (t : Token) : Scan Unit :=
  modify fun s =>
    if s.depth = 0 ∧ s.indent < (column : Int) then
      { s with
        indent := column, outer := s.indent :: s.outer
        tokens := s.tokens.insertIdxIfInBounds place t }
    else s

/-- Opens a block where the scanner stands. -/
def openBlockHere (t : Token) : Scan Unit := do
  let s ← get
  openBlock s.cursor.column s.tokens.size t

/-! ### Tokens -/

/-- Passes over spaces, comments and empty lines. -/
def skipGaps : Nat → Scan Unit
  | 0 => return
  | fuel + 1 => do
    let ended ← word do
      let _ ← Lex.takeWhile (· == ' ')
      if (← Lex.peek) == '#' then
        let _ ← Lex.takeWhile fun c => !isLineEnd c
      return !(← Lex.lineBreak).isEmpty
    if ended then
      -- a block key may begin on each new line
      if (← get).depth = 0 then allowKey true
      skipGaps fuel

/-- Reads a mark that separates documents. -/
def separator (t : Token) (length : Nat) : Scan Unit := do
  unwind (-1)
  dropKey
  allowKey false
  skip length
  emit t

/-- Reads a directive. -/
def directive : Scan Unit := do
  unwind (-1)
  dropKey
  allowKey false
  emit (.directive (← word Lex.directive))

/-- Opens a flow collection. -/
def openFlow (t : Token) : Scan Unit := do
  markKey
  modify fun s => { s with depth := s.depth + 1 }
  allowKey true
  skip 1
  emit t

/-- Closes a flow collection. -/
def closeFlow (t : Token) : Scan Unit := do
  dropKey
  let s ← get
  if s.depth = 0 then throw .malformed
  set { s with depth := s.depth - 1 }
  allowKey false
  skip 1
  emit t

/-- Reads the comma between parts of a flow collection. -/
def comma : Scan Unit := do
  allowKey true
  dropKey
  skip 1
  emit .comma

/-- Reads the hyphen in front of an entry of a block. -/
def entry : Scan Unit := do
  if (← get).depth = 0 then
    unless (← get).allowsKey do throw .malformed
    openBlockHere .sequenceStart
  allowKey true
  dropKey
  skip 1
  emit .entry

/-- Reads the question mark in front of a key. -/
def key : Scan Unit := do
  let flow := (← get).depth ≠ 0
  unless flow do
    unless (← get).allowsKey do throw .malformed
    openBlockHere .mappingStart
  allowKey !flow
  dropKey
  skip 1
  emit .key

/-- Reads the colon in front of a value.  If a key may have begun in this line, it has. -/
def value : Scan Unit := do
  let s ← get
  match s.keys.lookup s.depth with
  | some k => do
    set { s with
      keys := s.keys.filter fun e => e.1 != s.depth
      tokens := s.tokens.insertIdxIfInBounds k.token .key }
    openBlock k.column k.token .mappingStart
    allowKey false
  | none => do
    let flow := s.depth ≠ 0
    unless flow do
      unless s.allowsKey do throw .malformed
      openBlockHere .mappingStart
    allowKey !flow
    dropKey
  skip 1
  emit .value

/-- Reads a word in front of which a key may begin. -/
def wordToken (read : Lex Token) : Scan Unit := do
  markKey
  allowKey false
  emit (← word read)

/-- Reads a plain scalar. -/
def plain : Scan Unit := do
  markKey
  let s ← get
  let (text, ended) ← word (Lex.plain (s.depth ≠ 0) s.indent)
  allowKey ended
  emit (.scalar text true)

/-- Reads a block of lines. -/
def block (isFolded : Bool) : Scan Unit := do
  allowKey true
  dropKey
  let text ← word (Lex.block isFolded (← get).indent)
  emit (.scalar text false)

/-- Whether a plain scalar can begin here. -/
def startsPlain (flow : Bool) (c ahead : Char) : Bool :=
  !(isGap c || "-?:,[]\x7b\x7d#&*!|>'\"%@`".toList.contains c) ||
    (!isGap ahead && (c == '-' || (!flow && (c == '?' || c == ':'))))

/-- Reads the next token; `false` at the end. -/
def next : Scan Bool := do
  skipGaps ((← get).cursor.rest.length + 1)
  -- possible keys of earlier lines are none, and blocks that are indented further have ended
  dropStaleKeys
  unwind (← get).cursor.column
  let s ← get
  let c := s.cursor
  if c.rest.isEmpty then
    unwind (-1)
    dropKey
    return false
  let flow : Bool := s.depth ≠ 0
  let ch := c.peek
  let ahead := c.peekAt 1
  if ch == '%' && c.column == 0 then directive
  else if c.column == 0 && c.atSeparator then
    separator (if ch == '-' then .documentStart else .documentEnd) 3
  else if ch == '[' then openFlow .flowSequenceStart
  else if ch == '\x7b' then openFlow .flowMappingStart
  else if ch == ']' then closeFlow .flowSequenceEnd
  else if ch == '\x7d' then closeFlow .flowMappingEnd
  else if ch == ',' then comma
  else if ch == '-' && isGap ahead then entry
  else if ch == '?' && (flow || isGap ahead) then key
  else if ch == ':' && (flow || isGap ahead) then value
  else if ch == '*' then wordToken (return .reference (← Lex.anchorName))
  else if ch == '&' then wordToken (return .anchor (← Lex.anchorName))
  else if ch == '!' then
    wordToken do
      let (handle, name) ← Lex.tag
      return .tag handle name
  else if ch == '|' && !flow then block false
  else if ch == '>' && !flow then block true
  else if ch == '\'' then wordToken (return .scalar (← Lex.quoted false) false)
  else if ch == '"' then wordToken (return .scalar (← Lex.quoted true) false)
  else if startsPlain flow ch ahead then plain
  else throw .malformed
  return true

/-- Reads all tokens. -/
def all : Nat → Scan Unit
  | 0 => return
  | fuel + 1 => do
    if ← next then all fuel

end Scan

/-- The tokens of a document.  A mark of the byte order may stand in front of it. -/
def tokens (document : List Char) : Except Fault (List Token) := do
  if !document.all isAllowed then throw .malformed
  let start := Cursor.start document
  let start := if start.peek == byteOrderMark then start.next else start
  let scanner : Scanner := ⟨start, 0, -1, [], true, [], #[]⟩
  let ((), s) ← (Scan.all (document.length + 1)).run scanner
  return s.tokens.toList

end ContentSchema.Yaml
