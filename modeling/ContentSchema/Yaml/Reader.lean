import ContentSchema.Value.Display
import ContentSchema.Yaml.Node
import ContentSchema.Yaml.Scalar

/-!
# Reading documents

A document as a value: its tree with the scalars read, mappings merged where a key says so, and the
last of several equal keys kept.  A document with keys that are no texts, bytes, sets, or lists of
pairs is well formed, but no value expresses it.
-/

namespace ContentSchema.Yaml

/-- The kind that a tag names. -/
def kindOfTag? (tag : String) : Option Kind :=
  [("null", Kind.null), ("bool", .bool), ("int", .int), ("float", .float), ("timestamp", .stamp),
    ("str", .text)].lookup ((tag.dropPrefix tagStem).toString)

/-- Why a node with a tag is not read: it is malformed, unless the tag names a kind of things that
no value expresses. -/
def unreadTag (tag : String) : Fault :=
  if ["binary", "set", "omap", "pairs"].contains (tag.dropPrefix tagStem).toString then .inexpressible
  else .malformed

/-- The kind of a scalar: that of its tag, or the one that it is spelled like if it is plain. -/
def scalarKind (tag : Option String) (text : String) (plain : Bool) : Except Fault Kind :=
  match tag with
  | none => .ok (if plain then Kind.ofPlain text else .text)
  | some tag =>
    match if tag.startsWith tagStem then kindOfTag? tag else none with
    | some k => .ok k
    | none => .error (unreadTag tag)

/-- Whether a node may be a collection of the kind that the format calls `name`. -/
def mayBe (name : String) (tag : Option String) : Bool := tag.isNone || tag == some (tagStem ++ name)

namespace Node

/-- Whether a node is the key under which other mappings are merged. -/
def isMerge : Node → Bool
  | scalar none text true => Kind.ofPlain text == .merge
  | _ => false

/-- The entries of a mapping, with the entries of the mappings that it merges in front of them: of a
list of mappings the last one comes first. -/
def flatten : Nat → List (Node × Node) → Except Fault (List (Node × Node))
  | 0, _ => .error .malformed
  | fuel + 1, entries => do
    let merged ← (entries.filter (·.1.isMerge)).mapM fun e => do
      match e.2 with
      | mapping _ inner => flatten fuel inner
      | sequence _ items => do
        let parts ← items.mapM fun
          | mapping _ inner => flatten fuel inner
          | _ => .error .malformed
        return parts.reverse.flatten
      | scalar .. => .error .malformed
    return merged.flatten ++ entries.filter (!·.1.isMerge)

/-- The text of a key. -/
def keyText : Node → Except Fault String
  | scalar tag text plain => do
    match ← scalarKind tag text plain with
    | .text | .default => return text
    | k => do
      let _ ← Scalar.value k text
      throw .inexpressible
  | _ => .error .malformed

/-- The value of a node. -/
def value : Nat → Node → Except Fault Value
  | 0, _ => .error .malformed
  | _ + 1, scalar tag text plain => do Scalar.value (← scalarKind tag text plain) text
  | fuel + 1, sequence tag items =>
    if mayBe "seq" tag then .list <$> items.mapM (value fuel)
    else .error (unreadTag (tag.getD ""))
  | fuel + 1, mapping tag entries =>
    if mayBe "map" tag then do
      let flat ← flatten fuel entries
      let read ← flat.mapM fun e => return (← e.1.keyText, ← value fuel e.2)
      return .object (Entries.insertAll [] read)
    else .error (unreadTag (tag.getD ""))

end Node

/-- The value of a document; an empty one is null. -/
def read (document : List Char) : Except Fault Value := do
  match ← nodeOf? document with
  | none => return .null
  | some n => n.value (document.length + 2)

end ContentSchema.Yaml
