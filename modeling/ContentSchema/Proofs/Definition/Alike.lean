import ContentSchema.Proofs.Definition.Valid

/-!
# Readings that come out alike

Two readings are alike if both are accepted, with related results, or both are rejected for the same
issues (`Checked.Alike`).  Two objects are read alike if the known keys lead to values that are
(`Entries.Agree`), whatever else the objects hold.
-/

namespace ContentSchema

variable {α β γ δ : Type}

/-! ### Checked results -/

namespace Checked

/-- Both are accepted with related results, or both are rejected for the same issues. -/
inductive Alike (R : α → β → Prop) : Checked α → Checked β → Prop where
  /-- Both are accepted. -/
  | accepted {a : α} {b : β} (h : R a b) : Alike R (.accepted a) (.accepted b)
  /-- Both are rejected. -/
  | rejected (issues : List Issue) : Alike R (.rejected issues) (.rejected issues)

variable {R : α → β → Prop} {S : γ → δ → Prop} {x : Checked α} {y : Checked β}

theorem Alike.refl {R : α → α → Prop} (h : ∀ a, R a a) (x : Checked α) : Alike R x x := by
  cases x with
  | accepted a => exact .accepted (h a)
  | rejected issues => exact .rejected issues

theorem Alike.issues_eq (h : Alike R x y) : x.issues = y.issues := by
  cases h <;> rfl

theorem Alike.map {f : α → γ} {g : β → δ} (hfg : ∀ a b, R a b → S (f a) (g b)) (h : Alike R x y) :
    Alike S (f <$> x) (g <$> y) := by
  cases h with
  | accepted h => exact .accepted (hfg _ _ h)
  | rejected issues => exact .rejected issues

theorem Alike.seq {f : Checked (α → γ)} {g : Checked (β → δ)}
    (hfg : Alike (fun f g => ∀ a b, R a b → S (f a) (g b)) f g) (h : Alike R x y) :
    Alike S (f <*> x) (g <*> y) := by
  cases hfg with
  | accepted hfg =>
    cases h with
    | accepted h => exact .accepted (hfg _ _ h)
    | rejected issues => exact .rejected issues
  | rejected issues =>
    cases h with
    | accepted h => exact .rejected issues
    | rejected more => exact .rejected (issues ++ more)

theorem Alike.within (h : Alike R x y) (segment : String) :
    Alike R (x.within segment) (y.within segment) := by
  cases h with
  | accepted h => exact .accepted h
  | rejected issues => exact .rejected _

theorem Alike.ensure {test : α → Option Fault} {test' : β → Option Fault} (h : Alike R x y)
    (htest : ∀ a b, R a b → test a = test' b) : Alike R (x.ensure test) (y.ensure test') := by
  cases h with
  | rejected issues => exact .rejected issues
  | @accepted a b h =>
    rw [Checked.ensure, Checked.ensure, andThen, andThen, htest a b h]
    cases test' b with
    | some fault => exact .rejected _
    | none => exact .accepted h

/-- The outcomes are the same in the eyes of a function exactly if the function makes them so. -/
theorem alike_same_iff {f : α → γ} {x y : Checked α} : Alike (Same f) x y ↔ f <$> x = f <$> y := by
  constructor
  · intro h
    cases h with
    | accepted h => exact congrArg accepted h
    | rejected issues => rfl
  · intro h
    cases x with
    | accepted a =>
      cases y with
      | accepted b => exact .accepted (accepted.inj h)
      | rejected issues => cases h
    | rejected issues =>
      cases y with
      | accepted b => cases h
      | rejected more =>
        obtain rfl := rejected.inj h
        exact .rejected issues

/-- Lists are read alike if their items are, one by one. -/
theorem alike_traverse {E : γ → γ → Prop} {f : α → β} {read : Nat → γ → Checked α}
    (hread : ∀ i c d, E c d → Alike (Same f) (read i c) (read i d)) {l l' : List γ}
    (h : List.Forall₂ E l l') (i : Nat) :
    Alike (Same (List.map f)) (traverse read i l) (traverse read i l') := by
  induction h generalizing i with
  | nil => exact .accepted rfl
  | cons h _ ih =>
    refine .seq (.map ?_ ((hread i _ _ h).within _)) (ih (i + 1))
    intro a b hab as bs hrest
    rw [Same, List.map_cons, List.map_cons, hab, hrest]

end Checked

open Checked

/-! ### Related values -/

namespace Value

/-- The values are the same, or objects with related entries. -/
inductive InObject (E : Entries → Entries → Prop) : Value → Value → Prop where
  /-- Nothing differs. -/
  | same (v : Value) : InObject E v v
  /-- The entries differ. -/
  | object {entries entries' : Entries} (h : E entries entries') :
    InObject E (.object entries) (.object entries')

/-- The values are the same, or lists whose items are related one by one. -/
inductive InItems (E : Value → Value → Prop) : Value → Value → Prop where
  /-- Nothing differs. -/
  | same (v : Value) : InItems E v v
  /-- The items differ. -/
  | list {items items' : List Value} (h : List.Forall₂ E items items') :
    InItems E (.list items) (.list items')

theorem InObject.null_iff {E : Entries → Entries → Prop} (v w : Value) (h : InObject E v w) :
    v = .null ↔ w = .null := by
  cases h <;> simp

end Value

namespace Reader

variable {read : Reader α} {E : Value → Value → Prop} {R : α → α → Prop} {f : α → β}

/-- Related values are read alike. -/
def Respects (read : Reader α) (E : Value → Value → Prop) (R : α → α → Prop) : Prop :=
  ∀ v w, E v w → Alike R (read v) (read w)

/-- Any reader reads one value alike. -/
theorem respects_eq (read : Reader α) : Respects read Eq Eq := by
  rintro v _ rfl
  exact .refl (fun _ => rfl) _

theorem nullable_of_ne_null (read : Reader α) {v : Value} (hv : v ≠ .null) :
    nullable read v = some <$> read v := by
  rw [nullable.eq_def]
  split
  · exact absurd rfl hv
  · rfl

theorem Respects.or_null (h : Respects read E (Same f))
    (hnull : ∀ v w, E v w → (v = .null ↔ w = .null)) :
    Respects (nullable read) E (Same (Option.map f)) := by
  intro v w hvw
  by_cases hv : v = .null
  · rw [hv, (hnull v w hvw).1 hv]
    exact .accepted rfl
  · rw [nullable_of_ne_null read hv, nullable_of_ne_null read (mt (hnull v w hvw).2 hv)]
    exact (h v w hvw).map fun _ _ => congrArg some

theorem Respects.either {first second : Reader α} {firstName secondName : String}
    (hfirst : Respects first E R) (hsecond : Respects second E R) :
    Respects (either firstName first secondName second) E R := by
  intro v w hvw
  have h₁ := hfirst v w hvw
  have h₂ := hsecond v w hvw
  rw [Reader.either, Reader.either]
  generalize first v = x at h₁ ⊢
  generalize first w = x' at h₁ ⊢
  cases h₁ with
  | accepted h => exact .accepted h
  | rejected issues =>
    generalize second v = y at h₂ ⊢
    generalize second w = y' at h₂ ⊢
    cases h₂ with
    | accepted h => exact .accepted h
    | rejected more => exact .rejected _

theorem respects_nonEmptyList {item : Reader α} (h : Respects item E (Same f)) :
    Respects (nonEmptyList item) (Value.InItems E) (Same (List.map f)) := by
  rintro _ _ (v | hitems)
  · exact alike_same_iff.2 rfl
  · refine (alike_traverse (fun _ => h) hitems 0).ensure fun as bs hab => ?_
    rw [← List.isEmpty_map (f := f), hab, List.isEmpty_map]

theorem respects_object {record : String} {E : Entries → Entries → Prop}
    {read : Entries → Checked α} (hR : ∀ a, R a a)
    (h : ∀ entries entries', E entries entries' → Alike R (read entries) (read entries')) :
    Respects (Record.object record read) (Value.InObject E) R := by
  rintro _ _ (v | hentries)
  · exact .refl hR _
  · exact h _ _ hentries

end Reader

/-! ### Related objects -/

/-- The keys are missing in both objects, or lead to related values. -/
def Entries.Agree (keys : List Key) (inside : String → Value → Value → Prop)
    (entries entries' : Entries) : Prop :=
  ∀ k ∈ keys, ∀ name, name = k.primary ∨ name = k.other →
    Option.Rel (inside name) (entries.find? name) (entries'.find? name)

theorem Record.alike_keepUnknown (keys : List Key) (entries entries' : Entries) :
    Alike (fun _ _ => True) (keepUnknown keys entries) (keepUnknown keys entries') :=
  .accepted trivial

namespace Entries.Agree

variable {keys : List Key} {inside : String → Value → Value → Prop} {entries entries' : Entries}
  {k : Key} {read : Reader α} {f : α → β}

/-- Both objects have a key under the same spelling. -/
theorem find?_key (h : Agree keys inside entries entries') (hk : k ∈ keys) :
    Option.Rel (fun p q => p.1 = q.1 ∧ (p.1 = k.primary ∨ p.1 = k.other) ∧ inside p.1 p.2 q.2)
      (k.find? entries) (k.find? entries') := by
  have hprimary := h k hk k.primary (Or.inl rfl)
  have hother := h k hk k.other (Or.inr rfl)
  rw [Key.find?, Key.find?]
  generalize entries.find? k.primary = p at hprimary ⊢
  generalize entries'.find? k.primary = p' at hprimary ⊢
  cases hprimary with
  | some hinside => exact .some ⟨rfl, Or.inl rfl, hinside⟩
  | none =>
    generalize entries.find? k.other = o at hother ⊢
    generalize entries'.find? k.other = o' at hother ⊢
    cases hother with
    | some hinside => exact .some ⟨rfl, Or.inr rfl, hinside⟩
    | none => exact .none

section Read

variable (h : Agree keys inside entries entries') (hk : k ∈ keys)
  (hprimary : Reader.Respects read (inside k.primary) (Same f))
  (hother : Reader.Respects read (inside k.other) (Same f))
include h hk hprimary hother

theorem required :
    Alike (Same f) (Record.required k read entries) (Record.required k read entries') := by
  have hfind := h.find?_key hk
  rw [Record.required, Record.required]
  generalize k.find? entries = p at hfind ⊢
  generalize k.find? entries' = p' at hfind ⊢
  cases hfind with
  | none => exact .rejected _
  | @some p q hpq =>
    obtain ⟨name, v⟩ := p
    obtain ⟨name', w⟩ := q
    obtain ⟨rfl, hname, hinside⟩ := hpq
    rcases hname with rfl | rfl
    · exact (hprimary v w hinside).within _
    · exact (hother v w hinside).within _

theorem defaulted {default : α} : Alike (Same f) (Record.defaulted k default read entries)
    (Record.defaulted k default read entries') := by
  have hfind := h.find?_key hk
  rw [Record.defaulted, Record.defaulted]
  generalize k.find? entries = p at hfind ⊢
  generalize k.find? entries' = p' at hfind ⊢
  cases hfind with
  | none => exact .accepted rfl
  | @some p q hpq =>
    obtain ⟨name, v⟩ := p
    obtain ⟨name', w⟩ := q
    obtain ⟨rfl, hname, hinside⟩ := hpq
    rcases hname with rfl | rfl
    · exact (hprimary v w hinside).within _
    · exact (hother v w hinside).within _

end Read

/-! Keys whose values are the same in both objects. -/

section Equal

variable (h : Agree keys inside entries entries') (hk : k ∈ keys)
  (hprimary : inside k.primary = Eq) (hother : inside k.other = Eq)
include h hk hprimary hother

theorem required_eq :
    Alike Eq (Record.required k read entries) (Record.required k read entries') :=
  h.required (f := id) hk (hprimary ▸ Reader.respects_eq read) (hother ▸ Reader.respects_eq read)

theorem defaulted_eq {default : α} : Alike Eq (Record.defaulted k default read entries)
    (Record.defaulted k default read entries') :=
  h.defaulted (f := id) hk (hprimary ▸ Reader.respects_eq read) (hother ▸ Reader.respects_eq read)

end Equal

end Entries.Agree

end ContentSchema
