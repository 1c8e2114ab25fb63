import ContentSchema.Proofs.Compilation.Whole
import ContentSchema.Proofs.Run.Checking

/-!
# Findings and warnings

The checker and the compiler go through the fields of models separately: the checker through those
that are valid, with the slugs of the valid components at hand, and the compiler twice, with the
components by slug.  They agree (`checkDefinitions_agrees`): the report is sound exactly if all
definitions are valid, it has one error for each issue, and what it tells of derived fields and of
missing components is what the compiler warns of.
-/

namespace ContentSchema

/-! ### Warnings of a compilation -/

/-- The model and the field of a warning about a missing component. -/
def Warning.missing? : Warning → Option (String × String)
  | .missingComponent model field _ => some (model, field)
  | _ => none

/-- The model and the field of a warning about a derived field. -/
def Warning.skipped? : Warning → Option (String × String)
  | .derivedSkipped model field => some (model, field)
  | _ => none

namespace ContentModel

/-- The warning about a field whose component is missing. -/
def missingWarning? (m : ContentModel) (slugs : List String) (f : Field) : Option Warning :=
  f.component?.bind fun c =>
    if c.slug ∈ slugs then none else some (.missingComponent m.slug f.key c.slug)

/-- The warnings about the missing components of a model. -/
def missingWarnings (m : ContentModel) (slugs : List String) : List Warning :=
  m.storedFields.filterMap (m.missingWarning? slugs)

/-- The warning about a field: that it is derived, or that its component is missing. -/
def fieldWarning? (m : ContentModel) (slugs : List String) (f : Field) : Option Warning :=
  if f.derived then some (.derivedSkipped m.slug f.key) else m.missingWarning? slugs f

variable {m : ContentModel} {slugs others : List String} {f : Field}

theorem missingWarnings_congr (h : ∀ slug, slug ∈ slugs ↔ slug ∈ others) :
    m.missingWarnings slugs = m.missingWarnings others := by
  rw [missingWarnings, missingWarnings]
  refine List.filterMap_congr fun f _ => ?_
  simp only [missingWarning?, h]

theorem skipped?_missingWarning? : (m.missingWarning? slugs f).bind (·.skipped?) = none := by
  rw [missingWarning?, Option.bind_assoc]
  cases f.component? with
  | none => rfl
  | some c => by_cases hslug : c.slug ∈ slugs <;> simp [hslug, Warning.skipped?]

/-! Of all that is to be said about the fields of a model, one part is about missing components and
one about derived fields. -/

theorem missing?_derivedWarnings : m.derivedWarnings.filterMap (·.missing?) = [] := by
  rw [derivedWarnings, List.filterMap_map]
  exact List.filterMap_eq_nil_iff.2 fun _ _ => rfl

theorem skipped?_missingWarnings : (m.missingWarnings slugs).filterMap (·.skipped?) = [] := by
  rw [missingWarnings, List.filterMap_filterMap]
  exact List.filterMap_eq_nil_iff.2 fun f _ => skipped?_missingWarning?

theorem missing?_fieldWarnings :
    (m.fields.filterMap (m.fieldWarning? slugs)).filterMap (·.missing?) =
      (m.missingWarnings slugs).filterMap (·.missing?) := by
  rw [missingWarnings, storedFields, List.filterMap_filter, List.filterMap_filterMap,
    List.filterMap_filterMap]
  refine List.filterMap_congr fun f _ => ?_
  rw [fieldWarning?]
  cases f.derived <;> rfl

theorem skipped?_fieldWarnings :
    (m.fields.filterMap (m.fieldWarning? slugs)).filterMap (·.skipped?) =
      m.derivedWarnings.filterMap (·.skipped?) := by
  rw [derivedWarnings, ← List.filterMap_eq_map, List.filterMap_filter, List.filterMap_filterMap,
    List.filterMap_filterMap]
  refine List.filterMap_congr fun f _ => ?_
  rw [fieldWarning?]
  cases f.derived with
  | true => rfl
  | false => exact skipped?_missingWarning?

end ContentModel

section Warnings

variable {models : List ContentModel} {m : ContentModel} {components : Components}
  {settings : BuildSettings} {compilation : Compilation}

/-- The warning of an addition. -/
def Addition.warning? : Addition → Option Warning
  | .missing w => some w
  | _ => none

theorem additionWarnings_eq (additions : List Addition) :
    additionWarnings additions = additions.filterMap (·.warning?) := by
  rw [additionWarnings]
  refine List.filterMap_congr fun a _ => ?_
  cases a <;> rfl

/-- A field adds a warning exactly if its component is missing. -/
theorem warning?_of_additionOf {owner : String} {f : Field} {addition : Option Addition}
    (h : m.additionOf settings components owner f = .ok addition) :
    addition.bind (·.warning?) = m.missingWarning? components.slugs f := by
  rcases additionOf_eq_ok h with ⟨hnone, -, rfl⟩ | ⟨c, hc, hfind, rfl⟩ |
    ⟨c, component, ts, hc, hfind, -, rfl⟩ | ⟨hnone, t, -, rfl⟩
  · rw [ContentModel.missingWarning?, hnone]
    rfl
  · have hslug : c.slug ∉ components.slugs := Components.not_mem_slugs_iff.2 hfind
    rw [ContentModel.missingWarning?, hc]
    exact (if_neg hslug).symm
  · have hslug : c.slug ∈ components.slugs := Components.mem_slugs_iff.2 ⟨component, hfind⟩
    rw [ContentModel.missingWarning?, hc]
    exact (if_pos hslug).symm
  · rw [ContentModel.missingWarning?, hnone]
    rfl

/-- The warnings among the additions of a model are those about its missing components. -/
theorem additionWarnings_of_additions {found : List Addition}
    (h : m.additions settings components = .ok found) :
    additionWarnings found = m.missingWarnings components.slugs := by
  rw [additionWarnings_eq]
  exact filterMap_additions h fun f addition h => warning?_of_additionOf h

/-- The warnings of a compilation are those about derived fields and then those about missing
components. -/
theorem warnings_of_compileModels
    (h : compileModels models components settings = .ok compilation) :
    compilation.warnings = models.flatMap (·.derivedWarnings) ++
      models.flatMap (·.missingWarnings components.slugs) := by
  obtain ⟨own, additions, -, hadditions, rfl⟩ := compileModels_eq_ok.1 h
  have hmap : additions.map additionWarnings =
      models.map fun m => m.missingWarnings components.slugs :=
    map_eq_map_of_forall₂ (mapM_eq_ok.1 hadditions) fun _ _ _ h => additionWarnings_of_additions h
  rw [Compilation.ofParts, List.flatMap_def (f := additionWarnings), hmap, ← List.flatMap_def]

theorem missing?_warnings (h : compileModels models components settings = .ok compilation) :
    compilation.warnings.filterMap (·.missing?) =
      models.flatMap fun m => (m.missingWarnings components.slugs).filterMap (·.missing?) := by
  rw [warnings_of_compileModels h, List.filterMap_append, List.filterMap_flatMap,
    List.filterMap_flatMap,
    List.flatMap_eq_nil_iff.2 fun m _ => ContentModel.missing?_derivedWarnings, List.nil_append]

theorem skipped?_warnings (h : compileModels models components settings = .ok compilation) :
    compilation.warnings.filterMap (·.skipped?) =
      models.flatMap fun m => m.derivedWarnings.filterMap (·.skipped?) := by
  rw [warnings_of_compileModels h, List.filterMap_append, List.filterMap_flatMap,
    List.filterMap_flatMap,
    List.flatMap_eq_nil_iff.2 fun m _ => ContentModel.skipped?_missingWarnings, List.append_nil]

end Warnings

/-! ### Observations -/

namespace Observation

/-- The issue of a violation. -/
def issue? : Observation → Option Issue
  | .invalid _ _ issue => some issue
  | _ => none

/-- The warning that a compilation gives of the same. -/
def warning? : Observation → Option Warning
  | .derivedSkipped model field => some (.derivedSkipped model field)
  | .missingComponent model field component => some (.missingComponent model field component)
  | _ => none

/-- Violations are errors, and nothing else is one. -/
theorem level_eq_error_iff (o : Observation) :
    o.finding.level = .error ↔ o.issue?.isSome = true := by
  cases o <;> simp [finding, issue?]

end Observation

section Observed

variable {kind : DefinitionKind} {seen components targets : List String} {raws : List Value}
  {m : ContentModel} {observations : List Observation}

theorem filterMap_observeAll {β : Type} {p : Observation → Option β}
    (hp : ∀ name, p (.duplicateSlug kind name) = none) :
    (observeAll kind seen raws).filterMap p =
      raws.flatMap fun raw => (violations kind raw).filterMap p := by
  induction raws generalizing seen with
  | nil => rfl
  | cons raw raws ih =>
    have hduplicate : (if reportedName raw ∈ seen then
        [Observation.duplicateSlug kind (reportedName raw)] else []).filterMap p = [] := by
      split
      · rw [List.filterMap_cons_none (hp _), List.filterMap_nil]
      · rfl
    rw [observeAll, List.filterMap_append, List.filterMap_append, ih, hduplicate, List.append_nil,
      List.flatMap_cons]

/-- Each issue of a definition is observed. -/
theorem issue?_observeAll : (observeAll kind seen raws).filterMap (·.issue?) =
    raws.flatMap (definitionIssues kind) := by
  rw [filterMap_observeAll fun _ => rfl]
  refine List.flatMap_congr fun raw _ => ?_
  rw [violations, List.filterMap_map]
  exact List.filterMap_some

theorem warning?_observeAll : (observeAll kind seen raws).filterMap (·.warning?) = [] := by
  rw [filterMap_observeAll fun _ => rfl, List.flatMap_eq_nil_iff]
  intro raw _
  rw [violations, List.filterMap_map]
  exact List.filterMap_eq_nil_iff.2 fun _ _ => rfl

theorem issue?_observeField {model : String} {f : Field} :
    (observeField components targets model f).filterMap (·.issue?) = [] := by
  rw [observeField]
  split
  · rfl
  · split
    · split <;> rfl
    · split <;> rfl
    · rfl

/-- What a compilation warns of about a field is observed. -/
theorem warning?_observeField {f : Field} :
    (observeField components targets m.slug f).filterMap (·.warning?) =
      (m.fieldWarning? components f).toList := by
  rw [observeField.eq_def, ContentModel.fieldWarning?, ContentModel.missingWarning?]
  split
  · rfl
  · split
    · rename_i c hconfig
      rw [Field.component?_eq_some.2 hconfig, Option.bind_some]
      split <;> rfl
    · rename_i c hconfig
      rw [Field.component?, hconfig]
      split <;> rfl
    · rename_i hcomponent _
      have hnone : f.component? = none := by
        rw [Option.eq_none_iff_forall_not_mem]
        exact fun c hc => hcomponent c (Field.component?_eq_some.1 hc)
      rw [hnone]
      rfl

/-- What is observed of a model beside its fields is no violation and no warning of a
compilation. -/
theorem filterMap_observeModel {β : Type} {p : Observation → Option β}
    (hp : ∀ model key, p (.unknownSortField model key) = none) :
    (observeModel components targets m).filterMap p =
      m.fields.flatMap fun f => (observeField components targets m.slug f).filterMap p := by
  rw [observeModel.eq_def, List.filterMap_append, List.filterMap_flatMap]
  refine (congrArg (_ ++ ·) ?_).trans (List.append_nil _)
  split
  · split
    · rfl
    · rw [List.filterMap_cons_none (hp _ _), List.filterMap_nil]
  · rfl

theorem issue?_observeModel :
    (observeModel components targets m).filterMap (·.issue?) = [] := by
  rw [filterMap_observeModel fun _ _ => rfl]
  exact List.flatMap_eq_nil_iff.2 fun f _ => issue?_observeField

theorem warning?_observeModel :
    (observeModel components targets m).filterMap (·.warning?) =
      m.fields.filterMap (m.fieldWarning? components) := by
  rw [filterMap_observeModel fun _ _ => rfl, List.filterMap_eq_flatMap_toList]
  exact List.flatMap_congr fun f _ => warning?_observeField

/-- The issues of all definitions are observed, those of components first. -/
theorem issue?_observeDefinitions (models components : List Value) (names : List String) :
    (observeDefinitions models components names).filterMap (·.issue?) =
      components.flatMap (definitionIssues .component) ++
        models.flatMap (definitionIssues .model) := by
  rw [observeDefinitions, List.filterMap_append, List.filterMap_append, issue?_observeAll,
    issue?_observeAll, List.filterMap_flatMap,
    List.flatMap_eq_nil_iff.2 fun m _ => issue?_observeModel, List.append_nil]

/-- What a compilation of the valid models warns of is observed. -/
theorem warning?_observeDefinitions (models components : List Value) (names : List String) :
    (observeDefinitions models components names).filterMap (·.warning?) =
      (models.filterMap fun raw => (ContentModel.check raw).toOption).flatMap fun m =>
        m.fields.filterMap (m.fieldWarning?
          ((components.filterMap fun raw => (Component.check raw).toOption).map (·.slug))) := by
  rw [observeDefinitions, List.filterMap_append, List.filterMap_append, warning?_observeAll,
    warning?_observeAll, List.filterMap_flatMap]
  exact List.flatMap_congr fun m _ => warning?_observeModel

end Observed

/-! ### Reports -/

/-- The model and the field that a finding is about. -/
def Finding.place? (f : Finding) : Option (String × String) := do
  let model ← (f.context.find? "model").bind Value.asText?
  let field ← (f.context.find? "field").bind Value.asText?
  return (model, field)

namespace Report

/-- The places of the findings with a level and a code, in order. -/
def places (r : Report) (level : Level) (code : String) : List (Option (String × String)) :=
  (r.filter fun f => f.level == level && f.code == code).map (·.place?)

variable {observations : List Observation}

theorem length_ofLevel_error : (ofLevel (observations.map (·.finding)) .error).length =
    (observations.filterMap (·.issue?)).length := by
  rw [ofLevel, List.filter_map, List.length_map, List.length_filterMap_eq_countP,
    List.countP_eq_length_filter]
  refine congrArg List.length (List.filter_congr fun o _ => ?_)
  rw [Bool.eq_iff_iff, ← o.level_eq_error_iff]
  exact beq_iff_eq

theorem isSound_iff : isSound (observations.map (·.finding)) = true ↔
    observations.filterMap (·.issue?) = [] := by
  rw [← List.length_eq_zero_iff, ← length_ofLevel_error, List.length_eq_zero_iff, ofLevel,
    List.filter_eq_nil_iff, isSound, Bool.not_eq_true', List.any_eq_false]

/-- Findings are at the places of warnings, if each observation is. -/
theorem places_eq {level : Level} {code : String} {place : Warning → Option (String × String)}
    (h : ∀ o : Observation, (if o.finding.level == level && o.finding.code == code then
      some o.finding.place? else none) = (o.warning?.bind place).map some) :
    places (observations.map (·.finding)) level code =
      ((observations.filterMap (·.warning?)).filterMap place).map some := by
  rw [places, ← List.filterMap_eq_map, List.filterMap_filter, List.filterMap_map,
    List.filterMap_filterMap, List.map_filterMap]
  exact List.filterMap_congr fun o _ => h o

theorem places_missing : places (observations.map (·.finding)) .warning "MISSING_COMPONENT" =
    ((observations.filterMap (·.warning?)).filterMap (·.missing?)).map some := by
  refine places_eq fun o => ?_
  cases o with
  | duplicateSlug kind identifier => cases kind <;> rfl
  | invalid | derivedSkipped | missingComponent | unresolvedTarget | unknownSortField => rfl

theorem places_skipped : places (observations.map (·.finding)) .info "DERIVED_FIELD_SKIPPED" =
    ((observations.filterMap (·.warning?)).filterMap (·.skipped?)).map some := by
  refine places_eq fun o => ?_
  cases o with
  | duplicateSlug kind identifier => cases kind <;> rfl
  | invalid | derivedSkipped | missingComponent | unresolvedTarget | unknownSortField => rfl

/-- The report tells what validating the definitions and compiling them tells. -/
structure Agrees (r : Report) (raw : RawDefinitions) : Prop where
  /-- The report holds no error exactly if all models and components are valid. -/
  sound : r.isSound = true ↔
    (∀ v ∈ raw.models, ∃ m, ContentModel.validate v = .ok m) ∧
      ∀ v ∈ raw.components, ∃ c, Component.validate v = .ok c
  /-- There are as many errors as the definitions have issues. -/
  errors : (r.ofLevel .error).length =
    (raw.components.flatMap (definitionIssues .component)).length +
      (raw.models.flatMap (definitionIssues .model)).length
  /-- Without errors the definitions are valid, and the report and any compilation of them tell the
  same missing components and the same derived fields, in the same order. -/
  compiled : r.isSound = true → ∃ d, raw.validate = .ok d ∧
    ∀ settings compilation, compileModels d.models d.components settings = .ok compilation →
      r.places .warning "MISSING_COMPONENT" =
          (compilation.warnings.filterMap (·.missing?)).map some ∧
        r.places .info "DERIVED_FIELD_SKIPPED" =
          (compilation.warnings.filterMap (·.skipped?)).map some

end Report

/-- The report about definitions has no error exactly if all of them have no issues. -/
theorem isSound_checkDefinitions {models components : List Value} {names : List String} :
    (checkDefinitions models components names).isSound = true ↔
      (∀ v ∈ models, ∃ m, ContentModel.check v = .accepted m) ∧
        ∀ v ∈ components, ∃ c, Component.check v = .accepted c := by
  rw [checkDefinitions, Report.isSound_iff, issue?_observeDefinitions, List.append_eq_nil_iff,
    and_comm, List.flatMap_eq_nil_iff, List.flatMap_eq_nil_iff]
  simp only [ContentModel.definitionIssues_eq_nil, Component.definitionIssues_eq_nil]

/-- The checker agrees with the validation and with the compiler, whatever external names it is
given. -/
theorem checkDefinitions_agrees (raw : RawDefinitions) (names : List String) :
    (checkDefinitions raw.models raw.components names).Agrees raw where
  sound := by
    rw [isSound_checkDefinitions]
    simp only [ContentModel.validate, Component.validate, validateWith_eq_ok]
  errors := by
    rw [checkDefinitions, Report.length_ofLevel_error, issue?_observeDefinitions,
      List.length_append]
  compiled := by
    intro hsound
    obtain ⟨hmodels, hcomponents⟩ := isSound_checkDefinitions.1 hsound
    refine ⟨_, bind_eq_ok.2 ⟨_, mapM_eq_ok_filterMap validModel_eq_ok hmodels,
      bind_eq_ok.2 ⟨_, mapM_eq_ok_filterMap validComponent_eq_ok hcomponents, rfl⟩⟩, ?_⟩
    intro settings compilation h
    rw [checkDefinitions, Report.places_missing, Report.places_skipped,
      warning?_observeDefinitions, List.filterMap_flatMap, List.filterMap_flatMap,
      missing?_warnings h, skipped?_warnings h]
    refine ⟨congrArg (List.map some) (List.flatMap_congr fun m _ => ?_),
      congrArg (List.map some) (List.flatMap_congr fun m _ => ?_)⟩
    · rw [ContentModel.missing?_fieldWarnings,
        ContentModel.missingWarnings_congr fun slug => Components.mem_slugs_ofList.symm]
    · exact ContentModel.skipped?_fieldWarnings

/-- A header with one text under the given key. -/
def rawHero (key : String) : Value := .object [
  ("slug", .text "hero"), ("name", .text "Hero"),
  ("fields", .list [
    .object [("key", .text key), ("label", .text "Text"), ("type", .text "text")]])]

/-- Posts with a score that is derived, a teaser that nothing tells about, and a header that is
declared twice. -/
def rawScores : RawDefinitions where
  models := [.object [
    ("slug", .text "post"), ("name", .text "Post"),
    ("fields", .list [
      .object [("key", .text "teaser"), ("label", .text "Teaser"), ("type", .text "component"),
        ("config", .object [("slug", .text "teaser")])],
      .object [("key", .text "score"), ("label", .text "Score"), ("type", .text "number"),
        ("derived", .bool true)],
      .object [("key", .text "header"), ("label", .text "Header"), ("type", .text "component"),
        ("config", .object [("slug", .text "hero")])]])]]
  components := [rawHero "title", rawHero "image"]
  warnings := []

/-- The report tells of the teaser and of the score, and so does the compilation. -/
theorem agrees_rawScores : ∃ d compilation, rawScores.validate = .ok d ∧
    compileModels d.models d.components .standard = .ok compilation ∧
    compilation.warnings = [.derivedSkipped "post" "score",
      .missingComponent "post" "teaser" "teaser"] ∧
    (checkDefinitions rawScores.models rawScores.components []).places .warning
      "MISSING_COMPONENT" = [some ("post", "teaser")] ∧
    (checkDefinitions rawScores.models rawScores.components []).places .info
      "DERIVED_FIELD_SKIPPED" = [some ("post", "score")] := by
  obtain ⟨d, compilation, hd, hcompilation, hwarnings⟩ : ∃ d compilation,
      rawScores.validate = .ok d ∧
      compileModels d.models d.components .standard = .ok compilation ∧
      compilation.warnings = [.derivedSkipped "post" "score",
        .missingComponent "post" "teaser" "teaser"] :=
    ⟨_, _, rfl, rfl, by decide +kernel⟩
  have hsound : (checkDefinitions rawScores.models rawScores.components []).isSound = true := by
    decide +kernel
  obtain ⟨d', hd', hcompiled⟩ := (checkDefinitions_agrees rawScores []).compiled hsound
  rw [hd] at hd'
  cases hd'
  obtain ⟨hmissing, hskipped⟩ := hcompiled _ _ hcompilation
  rw [hwarnings] at hmissing hskipped
  exact ⟨d, compilation, hd, hcompilation, hwarnings, hmissing, hskipped⟩

end ContentSchema
