import ContentSchema.Text.Blank

/-!
# Environment variables

A text may stand for the value of a variable: `env("NAME")`, with either quote on each side and
blanks around the text and the quoted name.
-/

namespace ContentSchema

/-- Variables and their values. -/
abbrev Environment := List (String × String)

namespace Environment

open Text

/-- The variable that a text refers to, if it is such a reference. -/
def reference? (s : String) : Option String := do
  let isQuote (c : Char) : Bool := c = '"' || c = '\''
  let cs ← dropStart? "env(".toList (strip s.toList)
  let (name, rest) ← match cs.dropWhile isBlank with
    | c :: cs => if isQuote c then some (cs.span fun c => !isQuote c) else none
    | [] => none
  let rest ← match rest with
    | _ :: rest => some (rest.dropWhile isBlank)
    | [] => none
  if name.isEmpty ∨ rest ≠ [')'] then none else some (String.ofList name)

/-- A text, or the value of the variable that it refers to; `none` if that is not set. -/
def expand (environment : Environment) (s : String) : Option String :=
  match reference? s with
  | some name => environment.lookup name
  | none => some s

end Environment

end ContentSchema
