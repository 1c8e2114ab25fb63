import ContentSchema.Proofs.Definition.Valid
import ContentSchema.Proofs.Keyed
import ContentSchema.Run.Definitions

/-!
# Definitions of a run

The models and components of a run are valid, and each component is found under its own slug.
-/

namespace ContentSchema

/-! ### Components by slug -/

namespace Components

variable {components : Components} {list : List Component} {c : Component} {slug : String}

/-- Components are bound to their slugs one after another. -/
theorem ofList_eq_foldl_putBy :
    ofList list = (list.map fun c => (c.slug, c)).foldl (putBy Prod.fst) [] := by
  rw [ofList, List.foldl_map]
  rfl

/-- Each bound component is one of the list, under its own slug. -/
theorem mem_ofList {e : String × Component} (h : e ∈ ofList list) :
    ∃ c ∈ list, e = (c.slug, c) := by
  rw [ofList_eq_foldl_putBy] at h
  rcases mem_foldl_putBy h with h | h
  · cases h
  · obtain ⟨c, hc, rfl⟩ := List.mem_map.1 h
    exact ⟨c, hc, rfl⟩

theorem mem_slugs_ofList : slug ∈ (ofList list).slugs ↔ slug ∈ list.map (·.slug) := by
  rw [ofList_eq_foldl_putBy, slugs, mem_keys_foldl_putBy, List.map_map]
  simp

theorem mem_of_find?_eq_some (h : components.find? slug = some c) : (slug, c) ∈ components := by
  rw [find?] at h
  obtain ⟨l₁, l₂, rfl, -⟩ := List.lookup_eq_some_iff.1 h
  simp

/-- A slug is bound exactly if a component is found under it. -/
theorem mem_slugs_iff : slug ∈ components.slugs ↔ ∃ c, components.find? slug = some c := by
  constructor
  · intro h
    cases hfind : components.find? slug with
    | some c => exact ⟨c, rfl⟩
    | none =>
      obtain ⟨e, he, rfl⟩ := List.mem_map.1 h
      have hne := List.lookup_eq_none_iff.1 hfind e he
      simp at hne
  · rintro ⟨c, hc⟩
    exact List.mem_map.2 ⟨_, mem_of_find?_eq_some hc, rfl⟩

theorem not_mem_slugs_iff : slug ∉ components.slugs ↔ components.find? slug = none := by
  rw [mem_slugs_iff, not_exists, Option.eq_none_iff_forall_ne_some]

end Components

/-! ### Valid definitions -/

variable {raw : RawDefinitions} {d : Definitions}

theorem validModel_eq_ok {v : Value} {m : ContentModel} :
    validModel v = .ok m ↔ ContentModel.check v = .accepted m := by
  rw [validModel, mapError_eq_ok]
  exact validateWith_eq_ok

theorem validComponent_eq_ok {v : Value} {c : Component} :
    validComponent v = .ok c ↔ Component.check v = .accepted c := by
  rw [validComponent, mapError_eq_ok]
  exact validateWith_eq_ok

/-- Valid definitions are what each of the raw ones is read as. -/
theorem RawDefinitions.validate_eq_ok (h : raw.validate = .ok d) :
    List.Forall₂ (fun v m => ContentModel.check v = .accepted m) raw.models d.models ∧
      ∃ list, List.Forall₂ (fun v c => Component.check v = .accepted c) raw.components list ∧
        d.components = .ofList list := by
  obtain ⟨models, hmodels, h⟩ := bind_eq_ok.1 h
  obtain ⟨list, hlist, h⟩ := bind_eq_ok.1 h
  cases h
  refine ⟨(mapM_eq_ok.1 hmodels).imp fun _ _ => validModel_eq_ok.1, list, ?_, rfl⟩
  exact (mapM_eq_ok.1 hlist).imp fun _ _ => validComponent_eq_ok.1

/-- The models and the components of a run are valid. -/
structure Definitions.Valid (d : Definitions) : Prop where
  /-- The models are valid. -/
  models : ∀ m ∈ d.models, m.Valid
  /-- The components are valid. -/
  components : ∀ e ∈ d.components, e.2.Valid ∧ e.1 = e.2.slug

theorem Definitions.valid_of_validate (h : raw.validate = .ok d) : d.Valid := by
  obtain ⟨hmodels, list, hlist, hcomponents⟩ := RawDefinitions.validate_eq_ok h
  constructor
  · intro m hm
    obtain ⟨v, -, hv⟩ := exists_of_mem_right hmodels hm
    exact ContentModel.valid_of_check hv
  · intro e he
    rw [hcomponents] at he
    obtain ⟨c, hc, rfl⟩ := Components.mem_ofList he
    obtain ⟨v, -, hv⟩ := exists_of_mem_right hlist hc
    exact ⟨Component.valid_of_check hv, rfl⟩

theorem Config.valid_of_definitions {c : Config} {s : Surroundings}
    (h : (c.definitions s).outcome = .ok d) : d.Valid := by
  obtain ⟨raw, -, h⟩ := Staged.outcome_bind_eq_ok.1 h
  exact Definitions.valid_of_validate h

end ContentSchema
