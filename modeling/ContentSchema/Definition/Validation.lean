import ContentSchema.Definition.Reading

/-!
# Validation of definitions

A raw definition is valid when it reads as one and keeps the rules about all its fields together:
keys are unique, and components leave the keys of their variants alone.  Every violation is
reported, those of the shape first.
-/

namespace ContentSchema

/-- The kinds of definitions. -/
inductive DefinitionKind where
  | model | component
deriving DecidableEq, Repr

namespace DefinitionKind

/-- The name of a kind. -/
def name : DefinitionKind → String
  | model => "model"
  | component => "component"

/-- The kind with a name. -/
def ofName? (s : String) : Option DefinitionKind :=
  if s = "model" then some model else if s = "component" then some component else none

end DefinitionKind

/-- Field keys that component tables use for variants. -/
def variantKeys : List String := ["variant_id", "enabled"]

/-- The key that a raw field declares, if the field is an object and its key a text. -/
def rawFieldKey? (raw : Value) : Option String := (raw.get? "key").bind Value.asText?

/-- The issues among the keys of the raw fields from position `i` on, where `seen` gives the first
position of each earlier key. -/
def keyIssuesFrom (kind : DefinitionKind) : Nat → List (String × Nat) → List Value → List Issue
  | _, _, [] => []
  | i, seen, raw :: rest =>
    match rawFieldKey? raw with
    | none => keyIssuesFrom kind (i + 1) seen rest
    | some key =>
      let path := ["fields", toString i, "key"]
      let duplicate : List Issue := match seen.lookup key with
        | some first => [⟨path, .duplicateKey key first⟩]
        | none => []
      let reserved : List Issue :=
        if kind = .component ∧ key ∈ variantKeys then [⟨path, .variantKey key⟩] else []
      -- later repetitions are compared with the first occurrence
      let seen := if (seen.lookup key).isSome then seen else (key, i) :: seen
      duplicate ++ reserved ++ keyIssuesFrom kind (i + 1) seen rest

/-- The issues of rules that look at all fields of a raw definition. -/
def fieldListIssues (kind : DefinitionKind) (raw : Entries) : List Issue :=
  match raw.find? "fields" with
  | some (.list fields) => keyIssuesFrom kind 0 [] fields
  | _ => []

/-- Reads a definition with `read` and applies the rules about all its fields. -/
def checkDefinition {α : Type} (kind : DefinitionKind) (read : Reader α) : Reader α
  | .object entries =>
    (fun a (_ : Unit) => a)
      <$> read (.object entries)
      <*> (match fieldListIssues kind entries with
        | [] => .accepted ()
        | issues => .rejected issues)
  | v => .fail (.notDefinition kind.name v.kindName)

/-- Reads a valid model. -/
def ContentModel.check : Reader ContentModel := checkDefinition .model ContentModel.read

/-- Reads a valid component. -/
def Component.check : Reader Component := checkDefinition .component Component.read

/-- Every violation of a raw definition; none if it is valid. -/
def definitionIssues (kind : DefinitionKind) (raw : Value) : List Issue :=
  match kind with
  | .model => (ContentModel.check raw).issues
  | .component => (Component.check raw).issues

/-- The slug that a raw definition declares, valid or not. -/
def rawSlug? (raw : Value) : Option String := (raw.get? "slug").bind Value.asText?

/-- A definition that is not valid. -/
structure InvalidDefinition where
  /-- What it should have been. -/
  kind : DefinitionKind
  /-- Its slug, as far as it has one. -/
  identifier : Option String
  /-- All violations. -/
  issues : List Issue
deriving Repr

/-- The message about an invalid definition: one line for each violation. -/
def InvalidDefinition.message (e : InvalidDefinition) : String :=
  let subject := match e.identifier with
    | some slug => if slug = "" then e.kind.name else e.kind.name ++ " \"" ++ slug ++ "\""
    | none => e.kind.name
  "Validation failed for " ++ subject ++ ":\n" ++
    String.intercalate "\n" (e.issues.map fun i => i.pathText ++ ": " ++ i.fault.message)

/-- Reads a valid definition or says why it is not valid. -/
def validateWith {α : Type} (kind : DefinitionKind) (check : Reader α) (raw : Value) :
    Except InvalidDefinition α :=
  match check raw with
  | .accepted a => .ok a
  | .rejected issues => .error ⟨kind, rawSlug? raw, issues⟩

/-- Reads a valid model or says why the value is not one. -/
def ContentModel.validate (raw : Value) : Except InvalidDefinition ContentModel :=
  validateWith .model check raw

/-- Reads a valid component or says why the value is not one. -/
def Component.validate (raw : Value) : Except InvalidDefinition Component :=
  validateWith .component check raw

end ContentSchema
