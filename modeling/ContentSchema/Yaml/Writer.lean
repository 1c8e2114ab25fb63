import ContentSchema.Number.Decimal
import ContentSchema.Text.Quoted
import ContentSchema.Yaml.Scalar

/-!
# Writing documents

A value as a document in blocks, each two columns further in than the one around it, but for
sequences behind a key.  A text stands without quotes if it then reads back as that text; single
quotes come next, and double quotes hold all else.  Lines are broken at single spaces behind the
eightieth column.
-/

namespace ContentSchema.Yaml

/-! ### The pen -/

/-- What has been written, and what the next part must know of it. -/
structure Pen where
  /-- The characters written, last one first. -/
  written : List Char
  /-- How many of them stand in this line. -/
  column : Nat
  /-- Whether the last one is a blank that separates. -/
  isApart : Bool
  /-- Whether only indentation and marks stand in this line. -/
  isIndented : Bool

namespace Pen

/-- A pen that has written nothing. -/
def fresh : Pen := ⟨[], 0, true, true⟩

/-- Writes characters into the line. -/
def write (p : Pen) (cs : List Char) : Pen :=
  { p with written := cs.reverse ++ p.written, column := p.column + cs.length }

/-- Ends the line with a character. -/
def breakLine (p : Pen) (c : Char) : Pen := ⟨c :: p.written, 0, true, true⟩

/-- Begins a line at an indentation, unless the pen stands at the start of one already. -/
def indent (p : Pen) (width : Nat) : Pen :=
  let p :=
    if !p.isIndented || width < p.column || (p.column == width && !p.isApart) then p.breakLine '\n'
    else p
  if p.column < width then
    { p.write (List.replicate (width - p.column) ' ') with isApart := true }
  else p

/-- Breaks a line within a scalar. -/
def fold (p : Pen) (width : Nat) : Pen :=
  { p.indent width with isApart := false, isIndented := false }

/-- Writes a mark, with a space in front of it if it needs one. -/
def mark (p : Pen) (c : List Char) (needsSpace opensLine : Bool) : Pen :=
  let p' := p.write (if p.isApart || !needsSpace then c else ' ' :: c)
  { p' with isApart := false, isIndented := p.isIndented && opensLine }

/-- What the pen has written. -/
def text (p : Pen) : List Char := p.written.reverse

end Pen

/-! ### The choice of quotes -/

/-- What a text allows. -/
structure Shape where
  /-- Whether it has more than one line. -/
  hasLines : Bool
  /-- Whether it may stand without quotes. -/
  allowsPlain : Bool
  /-- Whether it may stand between single quotes. -/
  allowsSingle : Bool
deriving Repr

/-- Line ends that a document keeps as they are. -/
def isKeptBreak (c : Char) : Bool := c == '\n' || c == '\x85' || c == '\u2028' || c == '\u2029'

/-- Characters that only an escape can hold. -/
def needsEscape (c : Char) : Bool :=
  let n := c.toNat
  !(c == '\n' || (0x20 ≤ n && n ≤ 0x7E) ||
    ((n == 0x85 || (0xA0 ≤ n && n ≤ 0xD7FF) || (0xE000 ≤ n && n ≤ 0xFFFD) ||
      (0x10000 ≤ n && n < 0x10FFFF)) && c != byteOrderMark))

/-- Whether the start of a text would be taken for a mark. -/
def startsLikeMark (cs : List Char) : Bool :=
  match cs with
  | [] => false
  | c :: rest =>
    "#,[]\x7b\x7d&*!|>'\"%@`".toList.contains c ||
      ((c == '?' || c == ':' || c == '-') && isGap (rest.head?.getD endMark)) ||
      ['-', '-', '-'].isPrefixOf cs || ['.', '.', '.'].isPrefixOf cs

/-- Whether a colon in front of a gap or a comment's sign behind one stands in a text behind its
first character. -/
def holdsMark : List Char → Bool
  | before :: c :: rest =>
    (c == ':' && isGap (rest.head?.getD endMark)) || (c == '#' && isGap before) ||
      holdsMark (c :: rest)
  | _ => false

/-- Whether two characters of two classes stand side by side. -/
def holdsPair (p q : Char → Bool) : List Char → Bool
  | c :: d :: rest => (p c && q d) || holdsPair p q (d :: rest)
  | _ => false

/-- What a text allows. -/
def Shape.of (cs : List Char) : Shape :=
  let isSpace (c : Char) : Bool := c == ' '
  let isEdge (c : Option Char) : Bool := c.any fun c => isSpace c || isKeptBreak c
  let hasLines := cs.any isKeptBreak
  let isSpecial := cs.any needsEscape || holdsPair isSpace isKeptBreak cs
  let breaksBeforeSpace := holdsPair isKeptBreak isSpace cs
  { hasLines := hasLines
    allowsPlain := !(isEdge cs.head? || isEdge cs.getLast? || breaksBeforeSpace || isSpecial ||
      hasLines || startsLikeMark cs || holdsMark cs)
    allowsSingle := !(breaksBeforeSpace || isSpecial) }

/-- The three ways to write a scalar. -/
inductive Quoting where
  | plain | single | double
deriving DecidableEq, Repr

/-- How a text is written; a key stays in one line. -/
def quotingOf (s : String) (isKey : Bool) : Quoting :=
  let shape := Shape.of s.toList
  if Kind.ofPlain s = .text && shape.allowsPlain && !(isKey && shape.hasLines) then .plain
  else if shape.allowsSingle && !(isKey && shape.hasLines) then .single
  else .double

/-! ### Scalars -/

/-- The column behind which a line is broken. -/
def bestWidth : Nat := 80

/-- The runs of a text: its spaces, its line ends and all else. -/
def runs (cs : List Char) : List (List Char) :=
  cs.splitBy fun c d => (c == ' ') == (d == ' ') && isKeptBreak c == isKeptBreak d

/-- Writes a plain scalar. -/
def Pen.plain (p : Pen) (width : Nat) (folds : Bool) (cs : List Char) : Pen :=
  let p := if p.isApart then p else p.write [' ']
  let p := { p with isApart := false, isIndented := false }
  (runs cs).foldl (fun p run =>
    if run = [' '] ∧ bestWidth < p.column ∧ folds then p.fold width else p.write run) p

/-- Writes the runs of a text between single quotes; `isFirst` holds for the first one. -/
def Pen.singleRuns (width : Nat) (folds : Bool) (isFirst : Bool) (p : Pen) :
    List (List Char) → Pen
  | [] => p
  | run :: rest =>
    let p :=
      if run = [' '] ∧ bestWidth < p.column ∧ folds ∧ !isFirst ∧ !rest.isEmpty then p.indent width
      else if run.any isKeptBreak then
        let p := if run.head? = some '\n' then p.breakLine '\n' else p
        (run.foldl Pen.breakLine p).indent width
      else p.write (run.flatMap fun c => if c = '\'' then ['\'', '\''] else [c])
    p.singleRuns width folds false rest

/-- Writes a scalar between single quotes. -/
def Pen.single (p : Pen) (width : Nat) (folds : Bool) (cs : List Char) : Pen :=
  ((p.mark ['\''] true false).singleRuns width folds true (runs cs)).mark ['\''] false false

/-- How a character that needs an escape is written between double quotes. -/
def escapeOf (c : Char) : List Char :=
  let capitals (n : Nat) : List Char := (Text.hexDigits n c.toNat).map Char.toUpper
  match (Lex.escapes.filter fun e => e.1 != '\t' && e.1 != ' ' && e.1 != '/').find? fun e =>
    e.2 == c with
  | some (letter, _) => ['\\', letter]
  | none =>
    if c.toNat < 0x100 then '\\' :: 'x' :: capitals 2
    else if c.toNat < 0x10000 then '\\' :: 'u' :: capitals 4
    else '\\' :: 'U' :: capitals 8

/-- Whether a character is escaped between double quotes. -/
def isEscaped (c : Char) : Bool :=
  let n := c.toNat
  c == '"' || c == '\\' || c == byteOrderMark || c == '\u2028' || c == '\u2029' ||
    !((0x20 ≤ n && n ≤ 0x7E) || (0xA0 ≤ n && n ≤ 0xD7FF) || (0xE000 ≤ n && n ≤ 0xFFFD))

/-- Writes the characters of a text between double quotes.  `i` characters come before, `pending`
of them, last one first, are still to be written; `total` is the length of the text. -/
def Pen.doubleChars (width : Nat) (folds : Bool) (total : Nat) (p : Pen) (i : Nat)
    (pending : List Char) : List Char → Pen
  | [] => p.write pending.reverse
  | c :: rest =>
    let isInner : Bool := 0 < i && i + 1 < total && folds
    if isEscaped c then
      let p := (p.write pending.reverse).write (escapeOf c)
      let p :=
        if isInner && bestWidth + 1 < p.column then
          let p := (p.write ['\\']).fold width
          if rest.head? = some ' ' then p.write ['\\'] else p
        else p
      p.doubleChars width folds total (i + 1) [] rest
    else if isInner && (c == ' ' || pending.isEmpty) && bestWidth < p.column + pending.length then
      let p := (p.write (pending.reverse ++ ['\\'])).fold width
      let p := if c = ' ' then p.write ['\\'] else p
      p.doubleChars width folds total (i + 1) [c] rest
    else p.doubleChars width folds total (i + 1) (c :: pending) rest

/-- Writes a scalar between double quotes. -/
def Pen.double (p : Pen) (width : Nat) (folds : Bool) (cs : List Char) : Pen :=
  ((p.mark ['"'] true false).doubleChars width folds cs.length 0 [] cs).mark ['"'] false false

/-- Writes a text. -/
def Pen.scalar (p : Pen) (width : Nat) (isKey : Bool) (s : String) : Pen :=
  match quotingOf s isKey with
  | .plain => p.plain width (!isKey) s.toList
  | .single => p.single width (!isKey) s.toList
  | .double => p.double width (!isKey) s.toList

/-- A number with a point as it is written. -/
def floatText (x : Double) : List Char :=
  if x.isFinite then
    let cs := x.text
    if cs.contains '.' || !cs.contains 'e' then cs
    else cs.takeWhile (· ≠ 'e') ++ '.' :: '0' :: cs.dropWhile (· ≠ 'e')
  else if x.text == "nan".toList then ".nan".toList
  else if x.isNegative then "-.inf".toList
  else ".inf".toList

/-- Whether a key can stand in front of its colon in one line: it is short and one line itself. -/
def isSimpleKey (s : String) : Bool :=
  s ≠ "" && s.length < 123 && !(Shape.of s.toList).hasLines

/-! ### Values -/

mutual

/-- Writes a value inside a block at the given indentation; `behindKey` holds for the value of a
key. -/
def Pen.value (p : Pen) (width : Option Nat) (behindKey : Bool) : Value → Pen
  | .null => p.plain (foldWidth width) true "null".toList
  | .bool b => p.plain (foldWidth width) true (if b then "true".toList else "false".toList)
  | .int n => p.plain (foldWidth width) true (intText n)
  | .float x => p.plain (foldWidth width) true (floatText x)
  | .text s => p.scalar (foldWidth width) false s
  | .stamp _ shown => p.plain (foldWidth width) true shown.toList
  | .list [] => p.mark ['[', ']'] true false
  | .list items =>
    let inner := if behindKey && !p.isIndented then width.getD 0 else blockWidth width
    p.items inner items
  | .object [] => p.mark ['\x7b', '\x7d'] true false
  | .object entries => p.entries (blockWidth width) entries
where
  /-- How far lines of a scalar are indented. -/
  foldWidth (width : Option Nat) : Nat := (width.map (· + 2)).getD 2
  /-- How far a block is indented. -/
  blockWidth (width : Option Nat) : Nat := (width.map (· + 2)).getD 0

/-- Writes the items of a sequence. -/
def Pen.items (p : Pen) (width : Nat) : List Value → Pen
  | [] => p
  | v :: vs =>
    (((p.indent width).mark ['-'] true true).value (some width) false v).items width vs

/-- Writes the entries of a mapping. -/
def Pen.entries (p : Pen) (width : Nat) : List (String × Value) → Pen
  | [] => p
  | (k, v) :: es =>
    let p := p.indent width
    let p :=
      if isSimpleKey k then (p.scalar (width + 2) true k).mark [':'] false false
      else
        (((p.mark ['?'] true true).scalar (width + 2) false k).indent width).mark [':'] true true
    (p.value (some width) true v).entries width es

end

/-- A value as a document.  Behind a plain scalar that is the whole document stands a line of
points. -/
def write (v : Value) : List Char :=
  let p := (Pen.fresh.value none false v).indent 0
  let isOpen : Bool := match v with
    | .list _ | .object _ => false
    | .text s => quotingOf s false == .plain
    | _ => true
  if isOpen then p.text ++ "...\n".toList else p.text

end ContentSchema.Yaml
