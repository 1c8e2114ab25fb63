import ContentSchema.Text.Blank
import ContentSchema.Text.Case

/-!
# Re-casing identifiers

Identifiers in three conventions: `PascalCase` and `camelCase` cut a name at hyphens and underscores
and capitalise each word, `snake_case` puts an underscore in front of each capital letter.
-/

namespace ContentSchema

/-- How names are built. -/
inductive Convention where
  | snakeCase | camelCase | pascalCase
deriving DecidableEq, Repr

namespace Convention

/-- All conventions. -/
def all : List Convention := [snakeCase, camelCase, pascalCase]

/-- The name of a convention, written in that convention. -/
def name : Convention → String
  | snakeCase => "snake_case"
  | camelCase => "camelCase"
  | pascalCase => "PascalCase"

/-- The convention with a name. -/
def ofName? (s : String) : Option Convention := all.find? fun c => c.name == s

end Convention

namespace Naming

/-- Hyphens and underscores end a word. -/
def isWordBoundary (c : Char) : Bool := c == '-' || c == '_'

/-- A word with its first letter in upper case and the others in lower case. -/
def capitalize : List Char → List Char
  | [] => []
  | c :: cs => Text.upperChar c ++ Text.lower cs

/-- A name in `PascalCase`, as characters. -/
def pascalChars (cs : List Char) : List Char :=
  (cs.splitOnP isWordBoundary).flatMap capitalize

/-- A text with its first character in lower case. -/
def lowerFirst : List Char → List Char
  | [] => []
  | c :: cs => Text.lower [c] ++ cs

/-- A name in `camelCase`, as characters. -/
def camelChars (cs : List Char) : List Char := lowerFirst (pascalChars cs)

/-- A capital letter as an underscore and the small letter; other characters stay. -/
def snakeChar (c : Char) : List Char := if c.isUpper then ['_', c.toLower] else [c]

/-- A text without an underscore at its start. -/
def dropUnderscore : List Char → List Char
  | '_' :: cs => cs
  | cs => cs

/-- A name in `snake_case`, as characters. -/
def snakeChars (cs : List Char) : List Char := dropUnderscore (cs.flatMap snakeChar)

/-- A name in `PascalCase`. -/
def pascalCase (s : String) : String := .ofList (pascalChars s.toList)

/-- A name in `camelCase`. -/
def camelCase (s : String) : String := .ofList (camelChars s.toList)

/-- A name in `snake_case`. -/
def snakeCase (s : String) : String := .ofList (snakeChars s.toList)

/-- A name in the given convention. -/
def inCase (convention : Convention) (s : String) : String :=
  match convention with
  | .snakeCase => snakeCase s
  | .camelCase => camelCase s
  | .pascalCase => pascalCase s

end Naming

end ContentSchema
