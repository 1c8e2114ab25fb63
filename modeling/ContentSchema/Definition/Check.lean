import ContentSchema.Definition.Report
import ContentSchema.Definition.Validation

/-!
# Checking definitions together

Checking never stops: it reports the violations of every definition and then what a schema made of
the valid ones would leave out or leave open.  What is found is first an `Observation`, which names
the definitions concerned, and becomes a `Finding` by `Observation.finding`.
-/

namespace ContentSchema

/-- Something noteworthy about definitions. -/
inductive Observation where
  /-- A definition is not valid. -/
  | invalid (kind : DefinitionKind) (identifier : String) (issue : Issue)
  /-- An earlier definition has the same identifier. -/
  | duplicateSlug (kind : DefinitionKind) (identifier : String)
  /-- A derived field gets no column. -/
  | derivedSkipped (model field : String)
  /-- A field embeds a component that does not exist. -/
  | missingComponent (model field component : String)
  /-- A relation points at nothing known. -/
  | unresolvedTarget (model field target : String)
  /-- A model is sorted by a field that it lacks. -/
  | unknownSortField (model field : String)
deriving Repr

namespace DefinitionKind

/-- The name of a kind in capital letters. -/
def capitals : DefinitionKind → String
  | model => "MODEL"
  | component => "COMPONENT"

end DefinitionKind

namespace Observation

/-- The observation as a finding of a report. -/
def finding : Observation → Finding
  | invalid kind identifier issue =>
    let subject := kind.name ++ " \"" ++ identifier ++ "\""
    let place := if issue.pathText = "" then "" else issue.pathText ++ ": "
    { level := .error
      code := "INVALID_" ++ kind.capitals
      message := subject ++ ": " ++ place ++ issue.fault.message
      context := [(kind.name, .text identifier), ("path", .text issue.pathText)] }
  | duplicateSlug kind identifier =>
    { level := .warning
      code := "DUPLICATE_" ++ kind.capitals ++ "_SLUG"
      message := kind.name ++ " slug \"" ++ identifier ++
        "\" is declared more than once; the last one wins."
      context := [(kind.name, .text identifier)] }
  | derivedSkipped model field =>
    { level := .info
      code := "DERIVED_FIELD_SKIPPED"
      message := "Derived field \"" ++ field ++ "\" in model \"" ++ model ++
        "\" produces no column."
      context := [("model", .text model), ("field", .text field)] }
  | missingComponent model field component =>
    { level := .warning
      code := "MISSING_COMPONENT"
      message := "Component \"" ++ component ++ "\" not found for field \"" ++ field ++
        "\" in model \"" ++ model ++ "\"."
      context := [("model", .text model), ("field", .text field)] }
  | unresolvedTarget model field target =>
    { level := .info
      code := "UNRESOLVED_RELATION_TARGET"
      message := "Relation \"" ++ field ++ "\" in model \"" ++ model ++ "\" targets \"" ++ target ++
        "\", which is not defined here."
      context := [("model", .text model), ("field", .text field)] }
  | unknownSortField model field =>
    { level := .warning
      code := "UNKNOWN_SORT_FIELD"
      message := "sortField \"" ++ field ++ "\" of model \"" ++ model ++
        "\" is not one of its fields."
      context := [("model", .text model)] }

end Observation

/-- The name under which a raw definition is reported. -/
def reportedName (raw : Value) : String :=
  match rawSlug? raw with
  | some slug => if slug = "" then "<unknown>" else slug
  | none => "<unknown>"

/-- The violations of one raw definition as observations. -/
def violations (kind : DefinitionKind) (raw : Value) : List Observation :=
  (definitionIssues kind raw).map (.invalid kind (reportedName raw))

/-- The violations of raw definitions, and the repetitions of names in `seen` or among them. -/
def observeAll (kind : DefinitionKind) (seen : List String) : List Value → List Observation
  | [] => []
  | raw :: rest =>
    let name := reportedName raw
    violations kind raw ++ (if name ∈ seen then [.duplicateSlug kind name] else []) ++
      observeAll kind (name :: seen) rest

/-- What a schema would leave out or leave open about one field of a model. -/
def observeField (components targets : List String) (model : String) (f : Field) :
    List Observation :=
  if f.derived then [.derivedSkipped model f.key]
  else match f.config with
    | some (.component c) =>
      if c.slug ∈ components then [] else [.missingComponent model f.key c.slug]
    | some (.relation c) =>
      if c.target ∈ targets then [] else [.unresolvedTarget model f.key c.target]
    | _ => []

/-- What a schema would leave out or leave open about a model. -/
def observeModel (components targets : List String) (m : ContentModel) : List Observation :=
  m.fields.flatMap (observeField components targets m.slug) ++
    match m.settings.sortField with
    | some key =>
      if key = "" ∨ key ∈ m.fieldKeys then [] else [.unknownSortField m.slug key]
    | none => []

/-- All observations about raw definitions: violations of components and of models, then what the
valid models leave open.  Relations may point at models and at external tables. -/
def observeDefinitions (models components : List Value) (externalNames : List String) :
    List Observation :=
  -- invalid definitions are reported, but what they lead to is not looked at
  let validModels := models.filterMap fun raw => (ContentModel.check raw).toOption
  let validComponents := components.filterMap fun raw => (Component.check raw).toOption
  observeAll .component [] components ++ observeAll .model [] models ++
    validModels.flatMap (observeModel (validComponents.map (·.slug))
      (validModels.map (·.slug) ++ externalNames))

/-- The report about raw definitions. -/
def checkDefinitions (models components : List Value) (externalNames : List String) : Report :=
  (observeDefinitions models components externalNames).map (·.finding)

/-- The report about one raw definition alone. -/
def checkOne (kind : DefinitionKind) (raw : Value) : Report :=
  (violations kind raw).map (·.finding)

end ContentSchema
