/-!
# Warnings

What a run tolerates and tells its users.  Some warnings are about one model.
-/

namespace ContentSchema

/-- Something that a run leaves out or replaces. -/
inductive Warning where
  /-- A file of external tables cannot be read. -/
  | externalUnreadable (path reason : String)
  /-- The table of components cannot be read. -/
  | componentsUnreadable (table reason : String)
  /-- A derived field gets no column. -/
  | derivedSkipped (model field : String)
  /-- A field embeds a component that does not exist. -/
  | missingComponent (model field component : String)
  /-- Two tables have one name. -/
  | collision (table : String)
deriving DecidableEq, Repr

namespace Warning

/-- The words for a warning. -/
def message : Warning → String
  | externalUnreadable path reason =>
    "Failed to load external models from \"" ++ path ++ "\": " ++ reason
  | componentsUnreadable table reason =>
    "Failed to read components from \"" ++ table ++ "\": " ++ reason
  | derivedSkipped model field =>
    "Skipped derived field \"" ++ field ++ "\" in model \"" ++ model ++ "\""
  | missingComponent model field component =>
    "Component \"" ++ component ++ "\" not found for field \"" ++ field ++ "\" in model \"" ++
      model ++ "\""
  | collision table =>
    "Table \"" ++ table ++
      "\" is defined more than once; the last definition replaces the earlier one"

/-- The model that a warning is about. -/
def model? : Warning → Option String
  | derivedSkipped model _ | missingComponent model _ _ => some model
  | _ => none

/-- An index of messages by model with one more warning: its message goes behind those of its model,
and a model that is not in the index yet goes to the end.  A warning about no model is not kept. -/
def file (index : List (String × List String)) (w : Warning) : List (String × List String) :=
  match w.model? with
  | none => index
  | some m =>
    if index.any fun e => e.1 == m then
      index.map fun e => if e.1 == m then (m, e.2 ++ [w.message]) else e
    else index ++ [(m, [w.message])]

/-- The messages of warnings by model, filed one after another. -/
def index (warnings : List Warning) : List (String × List String) := warnings.foldl file []

/-- The models that warnings are about, each with its messages, in the order of first mention. -/
def byModel (warnings : List Warning) : List (String × List String) :=
  let models := (warnings.filterMap model?).eraseDups
  models.map fun m => (m, (warnings.filter fun w => w.model? == some m).map message)

end Warning

end ContentSchema
