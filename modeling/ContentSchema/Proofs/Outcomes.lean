import ContentSchema.Compilation.Field
import ContentSchema.Reading.Scalar
import ContentSchema.Run.Stage
import Mathlib.Data.List.Forall2

/-!
# Successful outcomes

What a success of a composed computation says about its parts: for computations that stop at the
first error, for checked readings that collect issues, and for the stages of a run.  And which errors
a computation may stop at (`FailsOnly`).
-/

namespace ContentSchema

variable {ε ε' α α' β β' γ : Type}

/-! ### Computations that stop at errors -/

theorem bind_eq_ok {x : Except ε α} {f : α → Except ε β} {b : β} :
    x >>= f = .ok b ↔ ∃ a, x = .ok a ∧ f a = .ok b := by
  cases x with
  | error e =>
    constructor
    · intro h
      cases h
    · rintro ⟨_, h, _⟩
      cases h
  | ok a =>
    constructor
    · intro h
      exact ⟨a, rfl, h⟩
    · rintro ⟨_, h, hf⟩
      cases h
      exact hf

theorem bind_eq_error {x : Except ε α} {f : α → Except ε β} {e : ε} :
    x >>= f = .error e ↔ x = .error e ∨ ∃ a, x = .ok a ∧ f a = .error e := by
  cases x with
  | error e' =>
    constructor
    · intro h
      cases h
      exact .inl rfl
    · rintro (h | ⟨_, h, _⟩)
      · cases h
        rfl
      · cases h
  | ok a =>
    constructor
    · intro h
      exact .inr ⟨a, rfl, h⟩
    · rintro (h | ⟨_, h, hf⟩)
      · cases h
      · cases h
        exact hf

theorem map_eq_ok {x : Except ε α} {f : α → β} {b : β} :
    f <$> x = .ok b ↔ ∃ a, x = .ok a ∧ f a = b := by
  cases x with
  | error e =>
    constructor
    · intro h
      cases h
    · rintro ⟨_, h, _⟩
      cases h
  | ok a =>
    constructor
    · intro h
      cases h
      exact ⟨a, rfl, rfl⟩
    · rintro ⟨_, h, rfl⟩
      cases h
      rfl

theorem pure_eq_ok {a b : α} : (pure a : Except ε α) = .ok b ↔ a = b :=
  Except.ok.injEq a b ▸ Iff.rfl

theorem mapError_eq_ok {x : Except ε α} {f : ε → ε'} {a : α} :
    x.mapError f = .ok a ↔ x = .ok a := by
  cases x with
  | error e =>
    constructor
    · intro h
      cases h
    · intro h
      cases h
  | ok b => simp [Except.mapError]

theorem mapError_eq_error {x : Except ε α} {f : ε → ε'} {e' : ε'} :
    x.mapError f = .error e' ↔ ∃ e, x = .error e ∧ f e = e' := by
  cases x with
  | error e => simp [Except.mapError]
  | ok a => simp [Except.mapError]

/-- A traversal succeeds with what its steps give, one by one. -/
theorem mapM_eq_ok {f : α → Except ε β} {l : List α} {l' : List β} :
    l.mapM f = .ok l' ↔ List.Forall₂ (fun a b => f a = .ok b) l l' := by
  induction l generalizing l' with
  | nil =>
    rw [List.mapM_nil, pure_eq_ok, List.forall₂_nil_left_iff]
    exact eq_comm
  | cons a l ih =>
    rw [List.mapM_cons, bind_eq_ok, List.forall₂_cons_left_iff]
    constructor
    · rintro ⟨b, hb, h⟩
      obtain ⟨bs, hbs, h⟩ := bind_eq_ok.1 h
      rw [pure_eq_ok] at h
      exact ⟨b, bs, hb, ih.1 hbs, h.symm⟩
    · rintro ⟨b, bs, hb, hbs, rfl⟩
      exact ⟨b, hb, bind_eq_ok.2 ⟨bs, ih.2 hbs, rfl⟩⟩

theorem exists_of_mem_right {R : α → β → Prop} {l : List α} {l' : List β}
    (h : List.Forall₂ R l l') {b : β} (hb : b ∈ l') : ∃ a ∈ l, R a b := by
  induction h with
  | nil => cases hb
  | cons hab _ ih =>
    rcases List.mem_cons.1 hb with rfl | hb
    · exact ⟨_, List.mem_cons_self, hab⟩
    · obtain ⟨a, ha, hR⟩ := ih hb
      exact ⟨a, List.mem_cons_of_mem _ ha, hR⟩

theorem exists_of_mem_left {R : α → β → Prop} {l : List α} {l' : List β}
    (h : List.Forall₂ R l l') {a : α} (ha : a ∈ l) : ∃ b ∈ l', R a b :=
  exists_of_mem_right h.flip ha

/-- What goes with a list that goes with another one goes with that one. -/
theorem forall₂_comp {R : α → β → Prop} {S : β → γ → Prop} {l : List α} {bs : List β} {cs : List γ}
    (hR : List.Forall₂ R l bs) (hS : List.Forall₂ S bs cs) :
    List.Forall₂ (fun a c => ∃ b, R a b ∧ S b c) l cs := by
  induction hR generalizing cs with
  | nil =>
    obtain rfl := List.forall₂_nil_left_iff.1 hS
    exact .nil
  | cons hab _ ih =>
    obtain ⟨c, cs', hbc, hrest, rfl⟩ := List.forall₂_cons_left_iff.1 hS
    exact .cons ⟨_, hab, hbc⟩ (ih hrest)

/-- Lists that go together by way of something go together by way of a list. -/
theorem exists_forall₂_of_comp {R : α → β → Prop} {S : β → γ → Prop} {l : List α}
    {cs : List γ} (h : List.Forall₂ (fun a c => ∃ b, R a b ∧ S b c) l cs) :
    ∃ bs, List.Forall₂ R l bs ∧ List.Forall₂ S bs cs := by
  induction h with
  | nil => exact ⟨[], .nil, .nil⟩
  | cons hac _ ih =>
    obtain ⟨b, hab, hbc⟩ := hac
    obtain ⟨bs, hR, hS⟩ := ih
    exact ⟨b :: bs, .cons hab hR, .cons hbc hS⟩

/-- What goes with an item in the middle of a list is in the middle of the other list. -/
theorem exists_split_of_forall₂ {R : α → β → Prop} {before after : List α} {a : α} {l : List β}
    (h : List.Forall₂ R (before ++ a :: after) l) :
    ∃ before' b after', l = before' ++ b :: after' ∧ before'.length = before.length ∧ R a b := by
  induction before generalizing l with
  | nil =>
    obtain ⟨b, after', hab, -, rfl⟩ := List.forall₂_cons_left_iff.1 h
    exact ⟨[], b, after', rfl, rfl, hab⟩
  | cons a' before ih =>
    obtain ⟨b', l', -, hrest, rfl⟩ := List.forall₂_cons_left_iff.1 h
    obtain ⟨before', b, after', rfl, hlength, hab⟩ := ih hrest
    exact ⟨b' :: before', b, after', rfl, congrArg (· + 1) hlength, hab⟩

/-- A list that goes with two others goes with the pairs of their items. -/
theorem forall₂_zip {R : α → β → Prop} {S : α → γ → Prop} {l : List α} {bs : List β} {cs : List γ}
    (hR : List.Forall₂ R l bs) (hS : List.Forall₂ S l cs) :
    List.Forall₂ (fun a x => R a x.1 ∧ S a x.2) l (bs.zip cs) := by
  induction hR generalizing cs with
  | nil => exact .nil
  | cons hab _ ih =>
    obtain ⟨c, cs', hac, hrest, rfl⟩ := List.forall₂_cons_left_iff.1 hS
    exact .cons ⟨hab, hac⟩ (ih hrest)

/-- Two lists that go with a third one, item by item, are paired up item by item. -/
theorem exists_mem_zip {R : α → β → Prop} {S : α → γ → Prop} {l : List α} {bs : List β}
    {cs : List γ} (hR : List.Forall₂ R l bs) (hS : List.Forall₂ S l cs) {a : α} (ha : a ∈ l) :
    ∃ b c, (b, c) ∈ bs.zip cs ∧ R a b ∧ S a c := by
  obtain ⟨⟨b, c⟩, hmem, hab, hac⟩ := exists_of_mem_left (forall₂_zip hR hS) ha
  exact ⟨b, c, hmem, hab, hac⟩

theorem map_eq_map_of_forall₂ {R : α → β → Prop} {f : α → γ} {g : β → γ} {l : List α} {l' : List β}
    (h : List.Forall₂ R l l') (hR : ∀ a ∈ l, ∀ b, R a b → g b = f a) : l'.map g = l.map f := by
  induction h with
  | nil => rfl
  | cons hab _ ih =>
    rw [List.map_cons, List.map_cons, hR _ List.mem_cons_self _ hab,
      ih fun a ha => hR a (List.mem_cons_of_mem _ ha)]

/-- Each result of a traversal comes from an item. -/
theorem exists_of_mem_mapM {f : α → Except ε β} {l : List α} {l' : List β}
    (h : l.mapM f = .ok l') {b : β} (hb : b ∈ l') : ∃ a ∈ l, f a = .ok b :=
  exists_of_mem_right (mapM_eq_ok.1 h) hb

/-- Each item of a traversal has a result. -/
theorem exists_of_mapM_of_mem {f : α → Except ε β} {l : List α} {l' : List β}
    (h : l.mapM f = .ok l') {a : α} (ha : a ∈ l) : ∃ b ∈ l', f a = .ok b :=
  exists_of_mem_left (mapM_eq_ok.1 h) ha

/-- What is made of the first item with a property, among what is made of all items. -/
theorem mapM_find?_of_forall₂ {f : α → Except ε β} {l : List α} {l' : List β}
    (h : List.Forall₂ (fun a b => f a = .ok b) l l') (p : α → Bool) :
    (l.find? p).mapM f = .ok ((l.findIdx? p).bind (l'[·]?)) := by
  induction h with
  | nil => rfl
  | @cons a b l l' hab _ ih =>
    by_cases hp : p a
    · simp [List.findIdx?_cons, hp, hab, Functor.map, Except.map]
    · have hposition : (a :: l).findIdx? p = (l.findIdx? p).map (· + 1) := by
        simp [List.findIdx?_cons, hp]
      rw [List.find?_cons_of_neg hp, ih, hposition, Option.bind_map]
      rfl

/-- A traversal that fails has the failure of one of its steps. -/
theorem exists_of_mapM_eq_error {f : α → Except ε β} {l : List α} {e : ε}
    (h : l.mapM f = .error e) : ∃ a ∈ l, f a = .error e := by
  induction l with
  | nil => cases h
  | cons a l ih =>
    rw [List.mapM_cons] at h
    rcases bind_eq_error.1 h with ha | ⟨b, -, h⟩
    · exact ⟨a, List.mem_cons_self, ha⟩
    · rcases bind_eq_error.1 h with hl | ⟨bs, -, h⟩
      · obtain ⟨a', ha', hfail⟩ := ih hl
        exact ⟨a', List.mem_cons_of_mem _ ha', hfail⟩
      · cases h

/-- The results of a traversal are the results that its steps have. -/
theorem filterMap_toOption_of_mapM {f : α → Except ε β} {l : List α} {l' : List β}
    (h : l.mapM f = .ok l') : (l.filterMap fun a => (f a).toOption) = l' := by
  induction mapM_eq_ok.1 h with
  | nil => rfl
  | cons hab hrest ih =>
    rw [List.filterMap_cons, hab]
    exact congrArg _ (ih (mapM_eq_ok.2 hrest))

/-- A traversal succeeds if each item has a result. -/
theorem exists_mapM_eq_ok {f : α → Except ε β} {l : List α} (h : ∀ a ∈ l, ∃ b, f a = .ok b) :
    ∃ l', l.mapM f = .ok l' := by
  induction l with
  | nil => exact ⟨[], rfl⟩
  | cons a l ih =>
    obtain ⟨b, hb⟩ := h a List.mem_cons_self
    obtain ⟨l', hl'⟩ := ih fun a' ha' => h a' (List.mem_cons_of_mem _ ha')
    exact ⟨b :: l', mapM_eq_ok.2 (.cons hb (mapM_eq_ok.1 hl'))⟩

/-- Traversals of two lists are the same if the steps are, item by item. -/
theorem mapM_eq_of_forall₂ {f : α → Except ε β} {f' : α' → Except ε β} {l : List α} {l' : List α'}
    (h : List.Forall₂ (fun a a' => f a = f' a') l l') : l.mapM f = l'.mapM f' := by
  induction h with
  | nil => rfl
  | cons ha _ ih => rw [List.mapM_cons, List.mapM_cons, ha, ih]

/-- Traversals that take the same steps are the same. -/
theorem mapM_congr {f g : α → Except ε β} {l : List α} (h : ∀ a ∈ l, f a = g a) :
    l.mapM f = l.mapM g :=
  mapM_eq_of_forall₂ (List.forall₂_same.2 h)

/-- A computation that goes on with a changed result gives the changed outcome, if each way of going
on does. -/
theorem bind_eq_map_bind {x : Except ε α} {x' : Except ε α'} {next : α → Except ε β}
    {next' : α' → Except ε β'} {f : α → α'} {g : β → β'} (hx : x' = f <$> x)
    (hnext : ∀ a, x = .ok a → next' (f a) = g <$> next a) :
    x' >>= next' = g <$> (x >>= next) := by
  rw [hx]
  cases x with
  | error e => rfl
  | ok a => exact hnext a rfl

/-- A traversal of changed items gives the changed results, if each step does. -/
theorem mapM_map {f : α → Except ε β} {f' : α' → Except ε β'} {g : α → α'} {k : β → β'} {l : List α}
    (h : ∀ a ∈ l, f' (g a) = k <$> f a) : (l.map g).mapM f' = List.map k <$> l.mapM f := by
  induction l with
  | nil => rfl
  | cons a l ih =>
    rw [List.map_cons, List.mapM_cons, List.mapM_cons]
    refine bind_eq_map_bind (h a List.mem_cons_self) fun b _ => ?_
    refine bind_eq_map_bind (ih fun a' ha' => h a' (List.mem_cons_of_mem _ ha')) fun bs _ => ?_
    rfl

/-- A traversal that skips some items gives what the traversal of the others gives. -/
theorem filterMap_mapM {f : α → Except ε (Option β)} {g : α → Except ε β} {p : α → Bool}
    {l : List α} (h : ∀ a ∈ l, f a = if p a then some <$> g a else pure none) :
    (·.filterMap id) <$> l.mapM f = (l.filter p).mapM g := by
  induction l with
  | nil => rfl
  | cons a l ih =>
    have hrest := ih fun a' ha' => h a' (List.mem_cons_of_mem _ ha')
    rw [List.mapM_cons, h a List.mem_cons_self, List.filter_cons]
    cases hp : p a with
    | true =>
      rw [if_pos rfl, if_pos rfl, List.mapM_cons, ← hrest]
      cases g a with
      | error e => rfl
      | ok b => cases l.mapM f <;> rfl
    | false =>
      rw [if_neg Bool.false_ne_true, if_neg Bool.false_ne_true, ← hrest]
      cases l.mapM f <;> rfl

/-- Items that are picked give the results that are picked with them. -/
theorem mapM_filter_eq_ok {f : α → Except ε β} {l : List α} {l' : List β} (h : l.mapM f = .ok l')
    (p : α → Bool) :
    (l.filter p).mapM f = .ok (((l.zip l').filter fun x => p x.1).map Prod.snd) := by
  rw [mapM_eq_ok] at h ⊢
  induction h with
  | nil => exact .nil
  | @cons a b l l' hab _ ih =>
    rw [List.zip_cons_cons, List.filter_cons, List.filter_cons]
    cases p a with
    | true => exact .cons hab ih
    | false => exact ih

/-- The items have results if those that are picked and those that are left have some. -/
theorem exists_mapM_eq_ok_of_filter {f : α → Except ε β} {l : List α} {p : α → Bool}
    {picked left : List β} (hpicked : (l.filter p).mapM f = .ok picked)
    (hleft : (l.filter (!p ·)).mapM f = .ok left) : ∃ l', l.mapM f = .ok l' := by
  refine exists_mapM_eq_ok fun a ha => ?_
  cases hp : p a with
  | true =>
    obtain ⟨b, -, hb⟩ := exists_of_mapM_of_mem hpicked (List.mem_filter.2 ⟨ha, hp⟩)
    exact ⟨b, hb⟩
  | false =>
    obtain ⟨b, -, hb⟩ := exists_of_mapM_of_mem hleft
      (List.mem_filter.2 ⟨ha, by rw [hp, Bool.not_false]⟩)
    exact ⟨b, hb⟩

/-- What a step keeps, a run of steps keeps. -/
theorem foldlM_preserves {P : α → Prop} {f : α → β → Except ε α} {l : List β}
    (hstep : ∀ a, P a → ∀ b ∈ l, ∀ a', f a b = .ok a' → P a') {a a' : α} (ha : P a)
    (h : l.foldlM f a = .ok a') : P a' := by
  induction l generalizing a with
  | nil =>
    rw [List.foldlM_nil, pure_eq_ok] at h
    exact h ▸ ha
  | cons b l ih =>
    rw [List.foldlM_cons] at h
    obtain ⟨a₁, h₁, h⟩ := bind_eq_ok.1 h
    exact ih (fun a ha b hb => hstep a ha b (List.mem_cons_of_mem _ hb))
      (hstep a ha b List.mem_cons_self a₁ h₁) h

theorem compiled_eq_ok {x : Checked α} {a : α} : compiled x = .ok a ↔ x = .accepted a := by
  cases x <;> simp [compiled]

/-! ### Errors of one kind -/

/-- Whatever error a computation stops at is of one kind. -/
def FailsOnly (P : ε → Prop) (x : Except ε α) : Prop := ∀ e, x = .error e → P e

namespace FailsOnly

variable {P : ε → Prop} {x : Except ε α}

theorem ok (a : α) : FailsOnly P (.ok a) := nofun

theorem error {e : ε} (h : P e) : FailsOnly P (.error e : Except ε α) := by
  rintro _ ⟨⟩
  exact h

theorem bind {next : α → Except ε β} (hx : FailsOnly P x)
    (hnext : ∀ a, x = .ok a → FailsOnly P (next a)) : FailsOnly P (x >>= next) := by
  intro e h
  rcases bind_eq_error.1 h with hfirst | ⟨a, ha, hrest⟩
  · exact hx e hfirst
  · exact hnext a ha e hrest

theorem mapM {f : α → Except ε β} {l : List α} (h : ∀ a ∈ l, FailsOnly P (f a)) :
    FailsOnly P (l.mapM f) := by
  intro e he
  obtain ⟨a, ha, hfail⟩ := exists_of_mapM_eq_error he
  exact h a ha e hfail

theorem mapError {f : ε' → ε} {x : Except ε' α} (h : ∀ e, P (f e)) : FailsOnly P (x.mapError f) := by
  intro e he
  obtain ⟨e', -, rfl⟩ := mapError_eq_error.1 he
  exact h e'

end FailsOnly

/-! ### Two computations -/

/-- Two things are the same in the eyes of a function. -/
abbrev Same (f : α → β) (a b : α) : Prop := f a = f b

theorem forall₂_same_iff {f : α → β} {l l' : List α} :
    List.Forall₂ (Same f) l l' ↔ l.map f = l'.map f := by
  rw [← List.forall₂_eq_eq_eq, List.forall₂_map_left_iff, List.forall₂_map_right_iff]

/-- Both computations succeed with related results, or both stop at the same error. -/
inductive Matching (R : α → β → Prop) : Except ε α → Except ε β → Prop where
  /-- Both succeed. -/
  | ok {a : α} {b : β} (h : R a b) : Matching R (.ok a) (.ok b)
  /-- Both stop. -/
  | error (e : ε) : Matching R (.error e) (.error e)

namespace Matching

variable {R : α → α' → Prop} {S : β → β' → Prop}

theorem refl {R : α → α → Prop} (h : ∀ a, R a a) (x : Except ε α) : Matching R x x := by
  cases x with
  | ok a => exact .ok (h a)
  | error e => exact .error e

theorem bind {x : Except ε α} {x' : Except ε α'} {next : α → Except ε β}
    {next' : α' → Except ε β'} (hx : Matching R x x')
    (hnext : ∀ a a', R a a' → Matching S (next a) (next' a')) :
    Matching S (x >>= next) (x' >>= next') := by
  cases hx with
  | ok h => exact hnext _ _ h
  | error e => exact .error e

/-- Computations with the same first step match if what follows does. -/
theorem bind_same (x : Except ε α) {next : α → Except ε β} {next' : α → Except ε β'}
    (hnext : ∀ a, Matching S (next a) (next' a)) : Matching S (x >>= next) (x >>= next') := by
  cases x with
  | ok a => exact hnext a
  | error e => exact .error e

theorem mapError {x : Except ε α} {x' : Except ε α'} (h : Matching R x x') (f : ε → ε') :
    Matching R (x.mapError f) (x'.mapError f) := by
  cases h with
  | ok h => exact .ok h
  | error e => exact .error (f e)

theorem imp {T : α → α' → Prop} {x : Except ε α} {x' : Except ε α'} (h : Matching R x x')
    (hR : ∀ a a', R a a' → T a a') : Matching T x x' := by
  cases h with
  | ok h => exact .ok (hR _ _ h)
  | error e => exact .error e

/-- Traversals match if their steps do. -/
theorem mapM {f : α → Except ε β} {f' : α' → Except ε β'} {l : List α} {l' : List α'}
    (hl : List.Forall₂ R l l') (hf : ∀ a a', R a a' → Matching S (f a) (f' a')) :
    Matching (List.Forall₂ S) (l.mapM f) (l'.mapM f') := by
  induction hl with
  | nil => exact .ok .nil
  | cons h _ ih =>
    rw [List.mapM_cons, List.mapM_cons]
    refine (hf _ _ h).bind fun b b' hb => ih.bind fun bs bs' hbs => ?_
    exact .ok (.cons hb hbs)

/-- The outcomes are the same in the eyes of a function exactly if the function makes them so. -/
theorem same_iff {f : α → γ} {x y : Except ε α} : Matching (Same f) x y ↔ f <$> x = f <$> y := by
  constructor
  · intro h
    cases h with
    | ok h => exact congrArg Except.ok h
    | error e => rfl
  · intro h
    cases x with
    | ok a =>
      cases y with
      | ok b => exact .ok (Except.ok.inj h)
      | error e => cases h
    | error e =>
      cases y with
      | ok b => cases h
      | error e' =>
        obtain rfl := Except.error.inj h
        exact .error e

end Matching

/-! ### Checked readings -/

namespace Checked

theorem map_eq_accepted {x : Checked α} {f : α → β} {b : β} :
    f <$> x = .accepted b ↔ ∃ a, x = .accepted a ∧ f a = b := by
  cases x with
  | accepted a => simp [Functor.map, map]
  | rejected issues => simp [Functor.map, map]

theorem seq_eq_accepted {f : Checked (α → β)} {x : Checked α} {b : β} :
    f <*> x = .accepted b ↔ ∃ g a, f = .accepted g ∧ x = .accepted a ∧ g a = b := by
  cases f <;> cases x <;> simp [Seq.seq, seq, map]

theorem within_eq_accepted {segment : String} {x : Checked α} {a : α} :
    x.within segment = .accepted a ↔ x = .accepted a := by
  cases x <;> simp [within]

theorem ensure_eq_accepted {x : Checked α} {test : α → Option Fault} {a : α} :
    x.ensure test = .accepted a ↔ x = .accepted a ∧ test a = none := by
  cases x with
  | rejected issues => simp [ensure, andThen]
  | accepted b =>
    rw [ensure, andThen]
    cases h : test b with
    | some fault =>
      simp only [fail, reduceCtorEq, accepted.injEq, false_iff, not_and]
      rintro rfl
      simp [h]
    | none =>
      simp only [accepted.injEq, iff_self_and]
      rintro rfl
      exact h

/-- A list is accepted with what its items are read as. -/
theorem traverse_eq_accepted {read : Nat → α → Checked β} {i : Nat} {l : List α} {l' : List β}
    (h : traverse read i l = .accepted l') :
    List.Forall₂ (fun a b => ∃ j, read j a = .accepted b) l l' := by
  induction l generalizing i l' with
  | nil =>
    rw [traverse] at h
    cases h
    exact .nil
  | cons a l ih =>
    rw [traverse] at h
    obtain ⟨g, bs, hg, hbs, rfl⟩ := seq_eq_accepted.1 h
    obtain ⟨b, hb, rfl⟩ := map_eq_accepted.1 hg
    exact .cons ⟨i, within_eq_accepted.1 hb⟩ (ih hbs)

end Checked

/-! ### Columns and tables -/

/-- A column is accepted if its name and type are not empty; a list loses the other mark. -/
theorem Column.compiled_make_eq_ok {c c' : Column} : compiled c.make = .ok c' ↔
    c.name ≠ "" ∧ c.type ≠ "" ∧ c' = { c with nullable := c.nullable && !c.isList } := by
  rw [compiled_eq_ok, make]
  by_cases hname : c.name = ""
  · by_cases htype : c.type = "" <;> simp [hname, htype, Functor.map, Seq.seq, Checked.map,
      Checked.seq]
  · by_cases htype : c.type = "" <;> simp [hname, htype, Functor.map, Seq.seq, Checked.map,
      Checked.seq, eq_comm]

/-- A table is accepted as it is if its name is not empty. -/
theorem Table.compiled_make_eq_ok {t t' : Table} :
    compiled t.make = .ok t' ↔ t.name ≠ "" ∧ t' = t := by
  rw [compiled_eq_ok, make]
  by_cases hname : t.name = "" <;> simp [hname, eq_comm]

/-! ### Stages of a run -/

theorem Staged.outcome_bind_eq_ok {x : Staged α} {next : α → Staged β} {b : β} :
    (x >>= next).outcome = .ok b ↔ ∃ a, x.outcome = .ok a ∧ (next a).outcome = .ok b := by
  rw [outcome_bind]
  exact bind_eq_ok

/-- Staged computations match if their first steps and what follows do, whichever stages they
enter. -/
theorem Staged.matching_bind {R : α → α' → Prop} {S : β → β' → Prop} {x : Staged α} {x' : Staged α'}
    {next : α → Staged β} {next' : α' → Staged β'} (hx : Matching R x.outcome x'.outcome)
    (hnext : ∀ a a', R a a' → Matching S (next a).outcome (next' a').outcome) :
    Matching S (x >>= next).outcome (x' >>= next').outcome := by
  rw [outcome_bind, outcome_bind]
  exact hx.bind hnext

/-- Both computations enter the same stages, and then succeed with related results or stop at the
same failure. -/
structure Staged.Parallel (R : α → β → Prop) (x : Staged α) (y : Staged β) : Prop where
  /-- The stages are the same. -/
  entered : x.entered = y.entered
  /-- The outcomes match. -/
  outcome : Matching R x.outcome y.outcome

namespace Staged.Parallel

variable {R : α → α' → Prop} {S : β → β' → Prop} {x : Staged α} {x' : Staged α'}

theorem ofOutcome {o : Outcome α} {o' : Outcome α'} (h : Matching R o o') :
    Parallel R (.ofOutcome o) (.ofOutcome o') := ⟨rfl, h⟩

theorem bind {next : α → Staged β} {next' : α' → Staged β'} (hx : Parallel R x x')
    (hnext : ∀ a a', R a a' → Parallel S (next a) (next' a')) :
    Parallel S (x >>= next) (x' >>= next') := by
  obtain ⟨entered, outcome⟩ := x
  obtain ⟨entered', outcome'⟩ := x'
  obtain ⟨rfl, houtcome⟩ := hx
  cases houtcome with
  | error e => exact ⟨rfl, .error e⟩
  | ok h =>
    obtain ⟨hentered, houtcome⟩ := hnext _ _ h
    exact ⟨congrArg (entered ++ ·) hentered, houtcome⟩

/-- Computations with the same first step are parallel if what follows is. -/
theorem bind_same (x : Staged α) {next : α → Staged β} {next' : α → Staged β'}
    (hnext : ∀ a, Parallel S (next a) (next' a)) : Parallel S (x >>= next) (x >>= next') := by
  refine Parallel.bind (R := Eq) ⟨rfl, .refl (fun _ => rfl) _⟩ fun a _ heq => ?_
  subst heq
  exact hnext a

/-- Parallel computations are the same with what follows, if that is the same for related results. -/
theorem bind_eq {next : α → Staged β} {next' : α' → Staged β} (hx : Parallel R x x')
    (hnext : ∀ a a', R a a' → next a = next' a') : x >>= next = x' >>= next' := by
  obtain ⟨entered, outcome⟩ := x
  obtain ⟨entered', outcome'⟩ := x'
  obtain ⟨rfl, houtcome⟩ := hx
  cases houtcome with
  | error e => rfl
  | @ok a a' h =>
    show Staged.mk (entered ++ (next a).entered) (next a).outcome =
      Staged.mk (entered ++ (next' a').entered) (next' a').outcome
    rw [hnext a a' h]

theorem finish (h : Parallel R x x') : Parallel R x.finish x'.finish := by
  obtain ⟨entered, outcome⟩ := x
  obtain ⟨entered', outcome'⟩ := x'
  obtain ⟨rfl, houtcome⟩ := h
  cases houtcome with
  | error e => exact ⟨rfl, .error e⟩
  | ok h => exact ⟨rfl, .ok h⟩

/-- What holds of results that the computations have may be added to what relates them. -/
theorem imp_of_ok {T : α → α' → Prop} (h : Parallel R x x')
    (hR : ∀ a a', x'.outcome = .ok a' → R a a' → T a a') : Parallel T x x' := by
  obtain ⟨entered, outcome⟩ := x
  obtain ⟨entered', outcome'⟩ := x'
  obtain ⟨rfl, houtcome⟩ := h
  cases houtcome with
  | error e => exact ⟨rfl, .error e⟩
  | ok h => exact ⟨rfl, .ok (hR _ _ rfl h)⟩

end Staged.Parallel

end ContentSchema
