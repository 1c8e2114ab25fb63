import ContentSchema.Yaml.Token

/-!
# Nodes of a document

The tree that a document's tokens describe.  A parser takes the tokens ahead and leaves those behind
its node.  Anchors are resolved on the way: an alias is the node that was anchored.
-/

namespace ContentSchema.Yaml

/-- A node with the tag that it is given, if it is given one. -/
inductive Node where
  /-- A scalar; `plain` says whether its text may mean something else than a text. -/
  | scalar (tag : Option String) (text : String) (plain : Bool)
  /-- A list of nodes. -/
  | sequence (tag : Option String) (items : List Node)
  /-- Keys and values. -/
  | mapping (tag : Option String) (entries : List (Node × Node))
deriving Repr

/-- The node where nothing is written. -/
def Node.nothing : Node := .scalar none "" true

/-- A scalar read as if it were plain; other nodes as they are. -/
def Node.asPlain : Node → Node
  | .scalar tag text _ => .scalar tag text true
  | n => n

/-- What a parser knows: the tokens ahead, the anchored nodes and what tag handles stand for. -/
structure Parser where
  /-- The tokens ahead. -/
  ahead : List Token
  /-- Anchored nodes by name. -/
  anchors : List (String × Node)
  /-- The anchors of the nodes that are being read. -/
  opened : List String
  /-- What tag handles stand for. -/
  handles : List (String × String)

/-- A parser of a part of a document. -/
abbrev Parse (α : Type) := StateT Parser (Except Fault) α

/-- What the tags of the format itself begin with. -/
def tagStem : String := "tag:yaml.org,2002:"

/-- What tag handles stand for unless a directive says otherwise. -/
def standardHandles : List (String × String) := [("!", "!"), ("!!", tagStem)]

namespace Parse

/-- Gives up. -/
def malformed {α : Type} : Parse α := throw .malformed

/-- The next token. -/
def peek : Parse (Option Token) := return (← get).ahead.head?

/-- Whether the next token is one of those given. -/
def isAt (ts : List Token) : Parse Bool := do
  match ← peek with
  | some t => return ts.contains t
  | none => return false

/-- Passes over the next token. -/
def advance : Parse Unit := modify fun p => { p with ahead := p.ahead.tail }

/-- Passes over a token that must be there. -/
def expect (t : Token) : Parse Unit := do
  unless ← isAt [t] do malformed
  advance

/-- Passes over a token if it is there. -/
def accept (t : Token) : Parse Bool := do
  let found ← isAt [t]
  if found then advance
  return found

/-- The full name of a tag; a lone exclamation mark is none. -/
def tagName (handle : Option String) (name : String) : Parse (Option String) := do
  let full ← match handle with
    | none => pure name
    | some h =>
      match (← get).handles.lookup h with
      | some stem => pure (stem ++ name)
      | none => malformed
  return if full = "!" then none else some full

/-- Reads the anchor and the tag in front of a node, in either order; says whether one was there. -/
def properties : Nat → Option String → Option (Option String) →
    Parse (Option String × Option (Option String))
  | 0, anchor, tag => return (anchor, tag)
  | fuel + 1, anchor, tag => do
    match ← peek, anchor, tag with
    | some (.anchor name), none, _ => do
      advance
      properties fuel (some name) tag
    | some (.tag handle name), _, none => do
      advance
      properties fuel anchor (some (← tagName handle name))
    | _, _, _ => return (anchor, tag)

/-- Remembers an anchored node; a name has one anchor. -/
def remember (anchor : Option String) (n : Node) : Parse Node := do
  match anchor with
  | none => return n
  | some name => do
    let p ← get
    if (p.anchors.lookup name).isSome then malformed
    set { p with anchors := (name, n) :: p.anchors }
    return n

/-- The kinds of places where a node may stand: in a flow collection, in a block, or behind a key of
a block, where a sequence need not be indented. -/
inductive Place where
  | flow | block | behindKey
deriving DecidableEq, Repr

mutual

/-- Reads a node. -/
def node (place : Place) : Nat → Parse Node
  | 0 => malformed
  | fuel + 1 => do
    match ← peek with
    | some (.reference name) => do
      advance
      match (← get).anchors.lookup name with
      | some n => return n
      -- a node inside itself has no end
      | none => if (← get).opened.contains name then throw .inexpressible else malformed
    | _ => do
      -- one anchor and one tag at most
      let (anchor, given) ← properties 2 none none
      let tag := given.getD none
      let outer := (← get).opened
      modify fun p => { p with opened := anchor.toList ++ outer }
      let n ← content place tag (anchor.isSome || given.isSome) fuel
      modify fun p => { p with opened := outer }
      remember anchor (if given = some none then n.asPlain else n)

/-- Reads what a node consists of; nothing is enough if it has an anchor or a tag. -/
def content (place : Place) (tag : Option String) (mayBeEmpty : Bool) : Nat → Parse Node
  | 0 => malformed
  | fuel + 1 => do
    match ← peek with
    | some (.scalar text plain) => do
      advance
      return .scalar tag text plain
    | some .flowSequenceStart => do
      advance
      return .sequence tag (← flowItems true fuel)
    | some .flowMappingStart => do
      advance
      return .mapping tag (← flowEntries true fuel)
    | some .entry =>
      if place = .behindKey then return .sequence tag (← looseItems fuel)
      else if mayBeEmpty then return .scalar tag "" true
      else malformed
    | some .sequenceStart =>
      if place = .flow then malformed
      else do
        advance
        return .sequence tag (← blockItems fuel)
    | some .mappingStart =>
      if place = .flow then malformed
      else do
        advance
        return .mapping tag (← blockEntries fuel)
    | _ => if mayBeEmpty then return .scalar tag "" true else malformed

/-- Reads a node, or nothing in front of one of the given tokens. -/
def nodeUnless (place : Place) (stops : List Token) : Nat → Parse Node
  | 0 => malformed
  | fuel + 1 => do
    if ← isAt stops then return .nothing else node place fuel

/-- Reads the entries of an indented sequence. -/
def blockItems : Nat → Parse (List Node)
  | 0 => malformed
  | fuel + 1 => do
    if ← accept .entry then
      let item ← nodeUnless .block [.entry, .blockEnd] fuel
      return item :: (← blockItems fuel)
    else
      expect .blockEnd
      return []

/-- Reads the entries of a sequence that is not indented. -/
def looseItems : Nat → Parse (List Node)
  | 0 => malformed
  | fuel + 1 => do
    if ← accept .entry then
      let item ← nodeUnless .block [.entry, .key, .value, .blockEnd] fuel
      return item :: (← looseItems fuel)
    else return []

/-- Reads the entries of a block mapping. -/
def blockEntries : Nat → Parse (List (Node × Node))
  | 0 => malformed
  | fuel + 1 => do
    if ← isAt [.key, .value] then
      let k ←
        if ← accept .key then nodeUnless .behindKey [.key, .value, .blockEnd] fuel
        else malformed
      let v ←
        if ← accept .value then nodeUnless .behindKey [.key, .value, .blockEnd] fuel
        else pure .nothing
      return (k, v) :: (← blockEntries fuel)
    else
      expect .blockEnd
      return []

/-- Reads the items of a flow sequence up to its end; `first` if none came before. -/
def flowItems (first : Bool) : Nat → Parse (List Node)
  | 0 => malformed
  | fuel + 1 => do
    if ← accept .flowSequenceEnd then return []
    else
      unless first do expect .comma
      if ← accept .flowSequenceEnd then return []
      else if ← accept .key then
        let k ← nodeUnless .flow [.value, .comma, .flowSequenceEnd] fuel
        let v ←
          if ← accept .value then nodeUnless .flow [.comma, .flowSequenceEnd] fuel
          else pure .nothing
        return .mapping none [(k, v)] :: (← flowItems false fuel)
      else
        let item ← node .flow fuel
        return item :: (← flowItems false fuel)

/-- Reads the entries of a flow mapping up to its end; `first` if none came before. -/
def flowEntries (first : Bool) : Nat → Parse (List (Node × Node))
  | 0 => malformed
  | fuel + 1 => do
    if ← accept .flowMappingEnd then return []
    else
      unless first do expect .comma
      if ← accept .flowMappingEnd then return []
      else if ← accept .key then
        let k ← nodeUnless .flow [.value, .comma, .flowMappingEnd] fuel
        let v ←
          if ← accept .value then nodeUnless .flow [.comma, .flowMappingEnd] fuel
          else pure .nothing
        return (k, v) :: (← flowEntries false fuel)
      else
        let k ← node .flow fuel
        return (k, .nothing) :: (← flowEntries false fuel)

end

/-- Reads directives: a version of the first edition at most once, and each handle at most once. -/
def directives (hasVersion : Bool) (own : List (String × String)) :
    Nat → Parse (List (String × String))
  | 0 => malformed
  | fuel + 1 => do
    match ← peek with
    | some (.directive d) => do
      advance
      match d with
      | .version major =>
        if hasVersion || (natOfDigits major) ≠ 1 then malformed else directives true own fuel
      | .handle handle stem =>
        if (own.lookup handle).isSome then malformed
        else directives hasVersion ((handle, stem) :: own) fuel
      | .other => directives hasVersion own fuel
    | _ => return own ++ standardHandles
where
  natOfDigits (ds : List Char) : Nat := ds.foldl (fun n c => n * 10 + (c.toNat - 48)) 0

/-- Passes over marks of a document's end. -/
def documentEnds : Nat → Parse Unit
  | 0 => return
  | fuel + 1 => do
    if ← accept .documentEnd then documentEnds fuel

/-- Whether a directive is next. -/
def isAtDirective : Parse Bool := do
  match ← peek with
  | some (.directive _) => return true
  | _ => return false

/-- Reads the one document of a stream, if there is one. -/
def document (fuel : Nat) : Parse (Option Node) := do
  if (← peek).isNone then return none
  let explicit := (← isAtDirective) || (← isAt [.documentStart])
  let n ←
    if explicit then do
      let handles ← directives false [] fuel
      modify fun p => { p with handles := handles }
      expect .documentStart
      if (← peek).isNone || (← isAtDirective) || (← isAt [.documentStart, .documentEnd]) then
        pure .nothing
      else node .block fuel
    else node .block fuel
  documentEnds fuel
  if (← peek).isSome then malformed
  return some n

end Parse

/-- The tree of a document; `none` if there is nothing in it. -/
def nodeOf? (document : List Char) : Except Fault (Option Node) := do
  let ts ← tokens document
  -- a token takes a few calls at most, so that the fuel is not used up
  let fuel := 4 * ts.length + 8
  let (n, _) ← (Parse.document fuel).run ⟨ts, [], [], standardHandles⟩
  return n

end ContentSchema.Yaml
