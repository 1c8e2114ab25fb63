import ContentSchema.Value

/-!
# Reports

Findings about definitions in three levels.  A report is sound when it holds no error.
-/

namespace ContentSchema

/-- How serious a finding is. -/
inductive Level where
  | error | warning | info
deriving DecidableEq, Repr

namespace Level

/-- The name of a level. -/
def name : Level → String
  | error => "error"
  | warning => "warning"
  | info => "info"

/-- The name of a level in capital letters. -/
def capitals : Level → String
  | error => "ERROR"
  | warning => "WARNING"
  | info => "INFO"

/-- The mark in front of a finding of this level. -/
def mark : Level → String
  | error => "✗"
  | warning => "!"
  | info => "i"

end Level

/-- One finding. -/
structure Finding where
  /-- How serious it is. -/
  level : Level
  /-- A short name of its kind. -/
  code : String
  /-- What it says. -/
  message : String
  /-- What it is about. -/
  context : Entries
deriving Repr

/-- A short text with level, code and message. -/
def Finding.summary (f : Finding) : String :=
  "[" ++ f.level.capitals ++ "] " ++ f.code ++ ": " ++ f.message

/-- Findings in the order in which they were made. -/
abbrev Report := List Finding

namespace Report

/-- The findings of one level. -/
def ofLevel (r : Report) (level : Level) : List Finding := r.filter fun f => f.level == level

/-- Whether the report holds no error. -/
def isSound (r : Report) : Bool := !r.any fun f => f.level == .error

/-- The codes of the findings. -/
def codes (r : Report) : List String := r.map (·.code)

/-- One line that counts the findings. -/
def summary (r : Report) : String :=
  "Validation: " ++ toString (r.ofLevel .error).length ++ " error(s), " ++
    toString (r.ofLevel .warning).length ++ " warning(s), " ++
    toString r.length ++ " total item(s)."

/-- The counting line, a blank one and a line for each finding, infos only if wanted. -/
def render (r : Report) (withInfo : Bool) : String :=
  let shown := r.filter fun f => withInfo || f.level != .info
  String.intercalate "\n" (r.summary :: "" ::
    shown.map fun f => "  " ++ f.level.mark ++ " [" ++ f.code ++ "] " ++ f.message)

end Report

end ContentSchema
