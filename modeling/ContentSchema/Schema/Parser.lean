import ContentSchema.Schema.Attribute

/-!
# Reading schema text

Tables out of schema text.  A table is a block that begins with a line `model <name> {` and ends
with the next brace at the start of a line; in between each line is a column, a directive, a comment
or blank.  Columns are read one to a line, as a name, a type and attributes.
-/

namespace ContentSchema

open Text (isBlank isWordChar strip dropStart?)

/-! ### Columns -/

/-- A type token without its marks, and whether it has the marks for missing values and lists. -/
def splitType (token : List Char) : List Char × Bool × Bool :=
  let nullable := token.getLast? = some '?'
  let token := if nullable then token.dropLast else token
  match token.reverse with
  | ']' :: '[' :: rest => (rest.reverse, nullable, true)
  | _ => (token, nullable, false)

/-- Whether a text starts with another one. -/
def startsWith (start : String) (cs : List Char) : Bool := start.toList.isPrefixOf cs

/-- Adds one attribute to a column. -/
def Column.addAttribute (c : Column) (attr : List Char) : Except SchemaError Column :=
  if startsWith "@relation" attr then
    return { c with relation := some (Attribute.relation attr) }
  else if startsWith "@map" attr then
    return { c with mapName := Attribute.mapNameAt? "@map(" attr }
  else do
    let default ← if startsWith "@default" attr then Attribute.defaultValue? attr
      else pure c.default
    return { c with
      default := default
      attributes := c.attributes ++ [String.ofList attr] }

/-- Reads the line of a column; `none` if the line has no name and type. -/
def Column.parse? (line : List Char) : Except SchemaError (Option Column) :=
  match Text.words line with
  | name :: token :: _ =>
    let (type, nullable, isList) := splitType token
    if type.isEmpty then return none
    else do
      -- a list has no mark for missing values, whatever its type says
      let start := { Column.bare (String.ofList name) (String.ofList type) with
        nullable := nullable && !isList, isList := isList }
      some <$> (Attribute.split line).foldlM Column.addAttribute start
  | _ => return none

/-! ### Tables -/

/-- The columns in brackets that a directive lists. -/
def directiveColumns? (title : String) (line : List Char) : Option (List String) := do
  let rest ← dropStart? (title ++ "([").toList line
  let (inner, _) ← Attribute.upTo? ']' rest
  return Attribute.names inner

/-- Adds one line of a block, without blanks at its ends, to a table. -/
def Table.addLine (t : Table) (line : List Char) : Except SchemaError Table :=
  if line.isEmpty || startsWith "//" line then return t
  else if startsWith "@@index" line then
    return { t with indexes := t.indexes ++ (directiveColumns? "@@index" line).toList }
  else if startsWith "@@unique" line then
    return { t with unique := t.unique ++ (directiveColumns? "@@unique" line).toList }
  else if startsWith "@@map" line then
    match Attribute.mapNameAt? "@@map(" line with
    | some name => return { t with mapName := some name }
    | none => return t
  -- directives of other kinds are passed over
  else if startsWith "@@" line then return t
  else do
    let column ← Column.parse? line
    return { t with columns := t.columns ++ column.toList }

/-- A block of schema text. -/
structure Block where
  /-- The name in its header. -/
  name : List Char
  /-- What stands between its braces. -/
  body : List Char
deriving DecidableEq, Repr

/-- Reads a block's lines into a table. -/
def Block.table (b : Block) : Except SchemaError Table :=
  ((Text.lines b.body).map strip).foldlM Table.addLine ⟨String.ofList b.name, [], [], [], none⟩

/-! ### Blocks -/

/-- Reads the header of a block: its name, and what follows the opening brace. -/
def header? (cs : List Char) : Option (List Char × List Char) :=
  match dropStart? "model".toList cs with
  | none => none
  | some rest =>
    let named := rest.dropWhile isBlank
    let name := named.takeWhile isWordChar
    if named.length = rest.length || name.isEmpty then none
    else match (named.dropWhile isWordChar).dropWhile isBlank with
      | '\x7b' :: rest => some (name, rest)
      | _ => none

/-- Reads up to the first brace at the start of a line: the text before it and what follows it. -/
def body? : List Char → Option (List Char × List Char)
  | '\n' :: '\x7d' :: rest => some (['\n'], rest)
  | c :: cs => (body? cs).map fun (body, rest) => (c :: body, rest)
  | [] => none

/-- Reads a whole block and what follows it. -/
def block? (cs : List Char) : Option (Block × List Char) :=
  (header? cs).bind fun (name, rest) => (body? rest).map fun (body, rest) => (⟨name, body⟩, rest)

theorem length_dropStart? {start cs rest : List Char} (h : dropStart? start cs = some rest) :
    rest.length + start.length = cs.length := by
  simp only [dropStart?] at h
  split at h
  · rename_i hp
    have := List.IsPrefix.length_le (List.isPrefixOf_iff_prefix.1 hp)
    cases h
    simp only [List.length_drop]
    omega
  · cases h

theorem length_body? {cs body rest : List Char} (h : body? cs = some (body, rest)) :
    rest.length < cs.length := by
  fun_induction body? cs generalizing body rest with
  | case1 tail => cases h; simp only [List.length_cons]; omega
  | case2 c cs _ ih =>
    simp only [Option.map_eq_some_iff, Prod.mk.injEq, Prod.exists] at h
    obtain ⟨b, r, hb, _, rfl⟩ := h
    have := ih hb
    simp only [List.length_cons]
    omega
  | case3 => cases h

theorem length_header? {cs name rest : List Char} (h : header? cs = some (name, rest)) :
    rest.length < cs.length := by
  simp only [header?] at h
  split at h
  · cases h
  · rename_i tail ht
    have hlen := length_dropStart? ht
    split at h
    · cases h
    · split at h
      · rename_i r hr
        cases h
        have h1 := (List.dropWhile_suffix (l := (tail.dropWhile isBlank).dropWhile isWordChar)
          isBlank).length_le
        have h2 := (List.dropWhile_suffix (l := tail.dropWhile isBlank) isWordChar).length_le
        have h3 := (List.dropWhile_suffix (l := tail) isBlank).length_le
        rw [hr] at h1
        simp only [List.length_cons] at h1
        omega
      · cases h

theorem length_block? {cs rest : List Char} {b : Block} (h : block? cs = some (b, rest)) :
    rest.length < cs.length := by
  simp only [block?, Option.bind_eq_some_iff, Option.map_eq_some_iff, Prod.mk.injEq,
    Prod.exists] at h
  obtain ⟨_, r, hh, _, _, hb, _, rfl⟩ := h
  exact Nat.lt_trans (length_body? hb) (length_header? hh)

/-- The blocks of a text; `lineStart` says whether it begins at the start of a line. -/
def blocksFrom (lineStart : Bool) (cs : List Char) : List Block :=
  match cs with
  | [] => []
  | c :: tail =>
    if lineStart then
      match h : block? (c :: tail) with
      | some (b, rest) =>
        have := length_block? h
        -- what follows the closing brace is not the start of a line
        b :: blocksFrom false rest
      | none => blocksFrom (c == '\n') tail
    else blocksFrom (c == '\n') tail
termination_by cs.length
decreasing_by all_goals simp only [List.length_cons] at *; omega

/-- The blocks of a schema text. -/
def blocks (text : List Char) : List Block := blocksFrom true text

/-- The tables of a schema text, in order; blocks without columns are passed over. -/
def parseTables (text : List Char) : Except SchemaError (List Table) := do
  let tables ← (blocks text).mapM Block.table
  return tables.filter fun t => !t.columns.isEmpty

end ContentSchema
