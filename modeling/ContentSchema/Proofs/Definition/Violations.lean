import ContentSchema.Proofs.Definition.Raised

/-!
# Rejections name issues

Whatever rejects a value names at least one issue, so that a definition is accepted exactly if it
has no issues (`ContentModel.definitionIssues_eq_nil`, `Component.definitionIssues_eq_nil`).
-/

namespace ContentSchema

variable {α β : Type}

/-! ### Checked results -/

namespace Checked

/-- A rejection names at least one issue. -/
def Explained (x : Checked α) : Prop := x.issues = [] → ∃ a, x = .accepted a

theorem explained_accepted (a : α) : (accepted a).Explained := fun _ => ⟨a, rfl⟩

theorem explained_rejected {issues : List Issue} (h : issues ≠ []) :
    (rejected issues : Checked α).Explained := fun hnil => absurd hnil h

theorem explained_fail (fault : Fault) : (fail fault : Checked α).Explained :=
  explained_rejected (List.cons_ne_nil _ _)

theorem Raised.explained {x : Checked α} (h : x.Raised) : x.Explained := by
  cases x with
  | accepted a => exact explained_accepted a
  | rejected issues => exact explained_rejected (h issues rfl).ne_nil

theorem Explained.map {x : Checked α} (h : x.Explained) (f : α → β) : (f <$> x).Explained := by
  intro hissues
  cases x with
  | accepted a => exact ⟨f a, rfl⟩
  | rejected issues =>
    obtain ⟨_, ha⟩ := h hissues
    cases ha

theorem Explained.seq {f : Checked (α → β)} {x : Checked α} (hf : f.Explained) (hx : x.Explained) :
    (f <*> x).Explained := by
  intro hissues
  rw [issues_seq, List.append_eq_nil_iff] at hissues
  obtain ⟨g, rfl⟩ := hf hissues.1
  obtain ⟨a, rfl⟩ := hx hissues.2
  exact ⟨g a, rfl⟩

end Checked

open Checked

/-! ### Definitions -/

/-- Whatever the reader rejects, it names at least one issue. -/
def Reader.Explains (read : Reader α) : Prop := ∀ v, (read v).Explained

theorem Reader.Raises.explains {read : Reader α} (h : read.Raises) : read.Explains :=
  fun v => (h v).explained

theorem explains_checkDefinition {kind : DefinitionKind} {read : Reader α} (h : read.Explains) :
    (checkDefinition kind read).Explains := by
  intro v
  cases v with
  | object entries =>
    refine Explained.seq ((h _).map _) ?_
    split
    · exact explained_accepted ()
    · rename_i hne
      exact explained_rejected hne
  | null | bool | int | float | text | stamp | list => exact explained_fail _

/-- A value has no issues exactly if it is read. -/
theorem Reader.Explains.issues_eq_nil {read : Reader α} (h : read.Explains) {v : Value} :
    (read v).issues = [] ↔ ∃ a, read v = .accepted a := by
  refine ⟨h v, ?_⟩
  rintro ⟨a, ha⟩
  rw [ha]
  rfl

/-- A value is a valid model exactly if it has no issues. -/
theorem ContentModel.definitionIssues_eq_nil {v : Value} :
    definitionIssues .model v = [] ↔ ∃ m, ContentModel.check v = .accepted m :=
  (explains_checkDefinition ContentModel.raises_read.explains).issues_eq_nil

/-- A value is a valid component exactly if it has no issues. -/
theorem Component.definitionIssues_eq_nil {v : Value} :
    definitionIssues .component v = [] ↔ ∃ c, Component.check v = .accepted c :=
  (explains_checkDefinition Component.raises_read.explains).issues_eq_nil

end ContentSchema
