import ContentSchema.Definition.Check
import ContentSchema.Proofs.Definition.Violations
import ContentSchema.Proofs.Run.Definitions

/-!
# Clean reports

Definitions whose report is clean are valid, and their models lead to known components, models and
tables only (`RawDefinitions.exists_validate_of_clean`).  The report says nothing about what
components lead to.
-/

namespace ContentSchema

/-- The report holds no error, no missing component and no target that is not resolved. -/
structure Report.Clean (r : Report) : Prop where
  /-- The report holds no error. -/
  sound : r.isSound = true
  /-- No component is missing. -/
  components : "MISSING_COMPONENT" ∉ r.codes
  /-- No target is left open. -/
  targets : "UNRESOLVED_RELATION_TARGET" ∉ r.codes

/-- The stored fields of the models embed known components only, and lead to models of the run or to
the given names. -/
structure Definitions.Closed (d : Definitions) (names : List String) : Prop where
  /-- Each embedded component is known. -/
  components : ∀ m ∈ d.models, ∀ f ∈ m.storedFields, ∀ c ∈ f.component?, c.slug ∈ d.components.slugs
  /-- Each relation leads to a model or to one of the names. -/
  targets : ∀ m ∈ d.models, ∀ f ∈ m.storedFields, ∀ c ∈ f.relation?,
    c.target ∈ d.models.map (·.slug) ∨ c.target ∈ names

/-! ### What a clean report leaves out -/

section Clean

variable {observations : List Observation} {o : Observation}

theorem Report.Clean.level_ne (h : Report.Clean (observations.map (·.finding)))
    (ho : o ∈ observations) : o.finding.level ≠ .error := by
  intro hlevel
  have hsound := h.sound
  rw [isSound, Bool.not_eq_true'] at hsound
  have hne := List.any_eq_false.1 hsound _ (List.mem_map_of_mem ho)
  simp [hlevel] at hne

theorem Report.Clean.code_ne (h : Report.Clean (observations.map (·.finding)))
    (ho : o ∈ observations) : o.finding.code ≠ "MISSING_COMPONENT" ∧
      o.finding.code ≠ "UNRESOLVED_RELATION_TARGET" := by
  have hcode : o.finding.code ∈ Report.codes (observations.map (·.finding)) :=
    List.mem_map_of_mem (List.mem_map_of_mem ho)
  exact ⟨fun heq => h.components (heq ▸ hcode), fun heq => h.targets (heq ▸ hcode)⟩

/-- The violations of each raw definition are observed. -/
theorem violations_subset_observeAll {kind : DefinitionKind} {seen : List String}
    {raws : List Value} {raw : Value} (h : raw ∈ raws) :
    violations kind raw ⊆ observeAll kind seen raws := by
  induction raws generalizing seen with
  | nil => cases h
  | cons first raws ih =>
    intro o ho
    rw [observeAll]
    rcases List.mem_cons.1 h with rfl | h
    · exact List.mem_append_left _ (List.mem_append_left _ ho)
    · exact List.mem_append_right _ (ih h ho)

/-- A definition has no issues if a clean report observes its violations. -/
theorem Report.Clean.definitionIssues_eq_nil (h : Report.Clean (observations.map (·.finding)))
    {kind : DefinitionKind} {raws : List Value} (hsub : observeAll kind [] raws ⊆ observations) :
    ∀ raw ∈ raws, definitionIssues kind raw = [] := by
  intro raw hraw
  rw [List.eq_nil_iff_forall_not_mem]
  intro issue hissue
  refine h.level_ne (hsub (violations_subset_observeAll hraw (List.mem_map_of_mem hissue))) ?_
  rfl

/-- What a clean report observes of a stored field. -/
theorem Report.Clean.of_observeField (h : Report.Clean (observations.map (·.finding)))
    {components targets : List String} {model : String} {f : Field} (hderived : f.derived = false)
    (hsub : observeField components targets model f ⊆ observations) :
    (∀ c ∈ f.component?, c.slug ∈ components) ∧ ∀ c ∈ f.relation?, c.target ∈ targets := by
  rw [observeField, hderived, if_neg Bool.false_ne_true] at hsub
  refine ⟨fun c hc => ?_, fun c hc => ?_⟩
  · by_contra hslug
    rw [Field.component?_eq_some.1 hc] at hsub
    simp only [hslug, if_false] at hsub
    exact (h.code_ne (hsub List.mem_cons_self)).1 rfl
  · by_contra htarget
    rw [Field.relation?_eq_some.1 hc] at hsub
    simp only [htarget, if_false] at hsub
    exact (h.code_ne (hsub List.mem_cons_self)).2 rfl

end Clean

/-! ### Clean definitions are valid and closed -/

/-- If all values are accepted, they are read as what the accepted ones among them are read as. -/
theorem mapM_eq_ok_filterMap {α : Type} {check : Reader α} {read : Value → Outcome α}
    (hread : ∀ {v a}, read v = .ok a ↔ check v = .accepted a) {raws : List Value}
    (h : ∀ raw ∈ raws, ∃ a, check raw = .accepted a) :
    raws.mapM read = .ok (raws.filterMap fun raw => (check raw).toOption) := by
  rw [mapM_eq_ok]
  induction raws with
  | nil => exact .nil
  | cons raw raws ih =>
    obtain ⟨a, ha⟩ := h raw List.mem_cons_self
    rw [List.filterMap_cons, ha, Checked.toOption]
    exact .cons (hread.2 ha) (ih fun raw hraw => h raw (List.mem_cons_of_mem _ hraw))

/-- Definitions with a clean report are valid, and what their models lead to is known. -/
theorem RawDefinitions.exists_validate_of_clean {raw : RawDefinitions} {names : List String}
    (h : (checkDefinitions raw.models raw.components names).Clean) :
    ∃ d, raw.validate = .ok d ∧ d.Closed names := by
  have hcomponents : ∀ v ∈ raw.components, ∃ c, Component.check v = .accepted c := fun v hv =>
    Component.definitionIssues_eq_nil.1 <| h.definitionIssues_eq_nil
      (fun _ ho => List.mem_append_left _ (List.mem_append_left _ ho)) v hv
  have hmodels : ∀ v ∈ raw.models, ∃ m, ContentModel.check v = .accepted m := fun v hv =>
    ContentModel.definitionIssues_eq_nil.1 <| h.definitionIssues_eq_nil
      (fun _ ho => List.mem_append_left _ (List.mem_append_right _ ho)) v hv
  refine ⟨_, bind_eq_ok.2 ⟨_, mapM_eq_ok_filterMap validModel_eq_ok hmodels,
    bind_eq_ok.2 ⟨_, mapM_eq_ok_filterMap validComponent_eq_ok hcomponents, rfl⟩⟩, ?_⟩
  have hfield := fun m hm f (hf : f ∈ ContentModel.storedFields m) =>
    h.of_observeField (by simpa using (List.mem_filter.1 hf).2) fun o ho =>
      List.mem_append_right _ (List.mem_flatMap.2 ⟨m, hm, List.mem_append_left _
        (List.mem_flatMap.2 ⟨f, (List.mem_filter.1 hf).1, ho⟩)⟩)
  refine ⟨fun m hm f hf c hc => ?_, fun m hm f hf c hc => ?_⟩
  · exact Components.mem_slugs_ofList.2 ((hfield m hm f hf).1 c hc)
  · exact List.mem_append.1 ((hfield m hm f hf).2 c hc)

end ContentSchema
