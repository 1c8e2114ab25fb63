/-!
# Paths

Names of files and directories, cut at slashes.  Empty parts and single points are left out; two
points in a row stay, as they lead to a parent only where the part before them exists.
-/

namespace ContentSchema

/-- A path. -/
structure Path where
  /-- What stands in front of an absolute path: one or two slashes; empty for a relative one. -/
  root : String
  /-- The names on the way. -/
  names : List String
deriving DecidableEq, Repr

namespace Path

/-- The slashes that make a path absolute: exactly two of them stay, any other number is one. -/
def rootOf (cs : List Char) : String :=
  match (cs.takeWhile (· = '/')).length with
  | 0 => ""
  | 2 => "//"
  | _ => "/"

/-- The path that a text spells. -/
def ofText (s : String) : Path :=
  let parts := (s.toList.splitOnP (· = '/')).map String.ofList
  ⟨rootOf s.toList, parts.filter fun p => p ≠ "" ∧ p ≠ "."⟩

/-- A path in its shortest spelling. -/
def text (p : Path) : String :=
  let s := p.root ++ String.intercalate "/" p.names
  if s = "" then "." else s

/-- The last name, empty if there is none. -/
def name (p : Path) : String := p.names.getLast?.getD ""

/-- The path without its last name. -/
def parent (p : Path) : Path := { p with names := p.names.dropLast }

/-- The path of a name in the directory `p`. -/
def join (p : Path) (name : String) : Path := { p with names := p.names ++ [name] }

/-- Whether a null character stands in a path, which no name of a file may hold. -/
def holdsNull (p : Path) : Bool := p.names.any fun name => name.toList.contains '\x00'

/-- The last name from its last point on, if the point stands neither first nor last. -/
def suffix (p : Path) : String :=
  let cs := p.name.toList
  let tail := cs.reverse.takeWhile (· ≠ '.')
  if tail.isEmpty ∨ cs.length ≤ tail.length + 1 then ""
  else String.ofList ('.' :: tail.reverse)

end Path

end ContentSchema
