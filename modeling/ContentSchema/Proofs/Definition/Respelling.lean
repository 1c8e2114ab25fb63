import ContentSchema.Proofs.Definition.Dump

/-!
# Definitions in other spellings

A key of a record has two spellings.  A raw definition is respelled by writing keys, in any of its
objects, in their other spellings where these are not there already (`DefinitionKind.Respelled`).

* `Entries.Respelled.rel_value?`: each key still leads to its value.
* `Entries.Respelled.unknown_eq`: the entries that no key is for stay the same.
-/

namespace ContentSchema

/-! ### Spellings -/

theorem Entries.find?_eq_none_of_has {entries : Entries} {name : String}
    (h : entries.has name = false) : entries.find? name = none := by
  rw [← Option.not_isSome_iff_eq_none, ← has_iff_find?_isSome, h]
  exact Bool.false_ne_true

theorem Entries.has_iff_exists {entries : Entries} {name : String} :
    entries.has name = true ↔ ∃ e ∈ entries, e.1 = name := by
  simp [has]

namespace Key

/-- The name is one of the spellings of the key. -/
def Spells (k : Key) (name : String) : Prop := name = k.primary ∨ name = k.other

instance (k : Key) : DecidablePred k.Spells := fun _ => inferInstanceAs (Decidable (_ ∨ _))

/-- No two of the keys share a spelling. -/
def Separate (keys : List Key) : Prop :=
  ∀ k ∈ keys, ∀ l ∈ keys, l.Spells k.primary ∨ l.Spells k.other → k = l

instance (keys : List Key) : Decidable (Separate keys) :=
  inferInstanceAs (Decidable (∀ k ∈ keys, ∀ l ∈ keys, _))

/-- The value of a key, under whichever spelling it is found. -/
def value? (k : Key) (entries : Entries) : Option Value := (k.find? entries).map (·.2)

variable {k l : Key} {keys : List Key} {entries : Entries} {name name' other : String}

theorem Separate.eq (h : Separate keys) (hk : k ∈ keys) (hl : l ∈ keys) (hname : k.Spells name)
    (hname' : l.Spells name) : k = l := by
  refine h k hk l hl ?_
  rcases hname with rfl | rfl
  · exact .inl hname'
  · exact .inr hname'

/-- Two spellings are all that a key has. -/
theorem Spells.eq_or_eq (hname : k.Spells name) (hname' : k.Spells name') (hne : name ≠ name')
    (h : k.Spells other) : other = name ∨ other = name' := by
  rcases hname with rfl | rfl <;> rcases hname' with rfl | rfl
  · exact absurd rfl hne
  · exact h
  · exact h.symm
  · exact absurd rfl hne

theorem value?_eq (k : Key) (entries : Entries) :
    k.value? entries = (entries.find? k.primary).or (entries.find? k.other) := by
  rw [value?, find?]
  cases entries.find? k.primary with
  | some v => rfl
  | none => cases entries.find? k.other <;> rfl

/-- If the other spelling is no name of an entry, a key has the value of the one. -/
theorem value?_of_absent (hname : k.Spells name) (hname' : k.Spells name') (hne : name ≠ name')
    (h : entries.has name' = false) : k.value? entries = entries.find? name := by
  have habsent := Entries.find?_eq_none_of_has h
  rw [value?_eq]
  rcases hname with rfl | rfl <;> rcases hname' with rfl | rfl
  · exact absurd rfl hne
  · rw [habsent, Option.or_none]
  · rw [habsent, Option.none_or]
  · exact absurd rfl hne

/-- A spelling is used if it is a name of an entry, where the first one goes before the second. -/
theorem uses_iff_has : k.uses entries name = true ↔ k.Spells name ∧ entries.has name = true ∧
    (name ≠ k.primary → entries.has k.primary = false) := by
  have hsome : ∀ {name v}, entries.find? name = some v → entries.has name = true := by
    intro name v h
    rw [Entries.has_iff_find?_isSome, h]
    rfl
  rw [uses_iff]
  constructor
  · rintro ⟨v, hfind⟩
    obtain ⟨hspells, hv⟩ := of_find?_eq_some hfind
    refine ⟨hspells, hsome hv, fun hne => ?_⟩
    by_contra hprimary
    rw [Bool.not_eq_false, Entries.has_iff_find?_isSome] at hprimary
    obtain ⟨w, hw⟩ := Option.isSome_iff_exists.1 hprimary
    rw [find?, hw] at hfind
    exact hne (congrArg Prod.fst (Option.some.inj hfind)).symm
  · rintro ⟨hspells, hhas, hfirst⟩
    rw [Entries.has_iff_find?_isSome] at hhas
    obtain ⟨v, hv⟩ := Option.isSome_iff_exists.1 hhas
    refine ⟨v, ?_⟩
    by_cases hprimary : name = k.primary
    · rw [find?, ← hprimary, hv]
    · rw [find?, Entries.find?_eq_none_of_has (hfirst hprimary),
        ← hspells.resolve_left hprimary, hv]
      rfl

end Key

/-! ### Respelled objects -/

/-- An entry of an object and what it becomes: the same, the same with another value if it is the
entry of a key, or the entry of a key in its other spelling, beside which neither object has the
one that it leaves behind or takes. -/
inductive Entries.Turned (keys : List Key) (inside : Key → Value → Value → Prop)
    (entries entries' : Entries) : String × Value → String × Value → Prop where
  /-- Nothing differs. -/
  | same (e : String × Value) : Turned keys inside entries entries' e e
  /-- The value of a key differs. -/
  | value {k : Key} {name : String} {v w : Value} (hk : k ∈ keys)
    (huses : k.uses entries name = true) (hvalue : inside k v w) :
    Turned keys inside entries entries' (name, v) (name, w)
  /-- The spelling of a key differs, and its value may differ too. -/
  | spelling {k : Key} {name name' : String} {v w : Value} (hk : k ∈ keys) (hname : k.Spells name)
    (hname' : k.Spells name') (habsent : entries.has name' = false)
    (habsent' : entries'.has name = false) (hvalue : inside k v w) :
    Turned keys inside entries entries' (name, v) (name', w)

/-- The second object has the entries of the first, some keys of which are in their other spellings,
where the values of keys may differ. -/
def Entries.Respelled (keys : List Key) (inside : Key → Value → Value → Prop)
    (entries entries' : Entries) : Prop :=
  List.Forall₂ (Turned keys inside entries entries') entries entries'

/-- The second object has the first one's keys in other spellings, and nothing else differs. -/
abbrev Entries.Spelled (keys : List Key) : Entries → Entries → Prop :=
  Entries.Respelled keys fun _ => Eq

/-- All keys lead to related values, and the other entries are the same. -/
structure Entries.Known (keys : List Key) (inside : Key → Value → Value → Prop)
    (entries entries' : Entries) : Prop where
  /-- The keys lead to related values. -/
  value? : ∀ k ∈ keys, Option.Rel (inside k) (k.value? entries) (k.value? entries')
  /-- The other entries are the same. -/
  unknown : entries.unknown keys = entries'.unknown keys

namespace Entries

/-- Entries that are found under corresponding names are related if all of them are. -/
theorem rel_find? {R : Value → Value → Prop} {name name' : String} {entries entries' : Entries}
    (h : List.Forall₂ (fun e e' => (e.1 = name ↔ e'.1 = name') ∧ (e.1 = name → R e.2 e'.2))
      entries entries') : Option.Rel R (entries.find? name) (entries'.find? name') := by
  induction h with
  | nil => exact .none
  | cons h _ ih =>
    obtain ⟨hnames, hvalue⟩ := h
    rw [find?_cons, find?_cons]
    split
    · rename_i hname
      rw [if_pos (hnames.1 hname)]
      exact .some (hvalue hname)
    · rename_i hname
      rw [if_neg (mt hnames.2 hname)]
      exact ih

/-- What becomes of the name of an entry, as far as one key is concerned. -/
structure NameKept (k : Key) (entries entries' : Entries) (name name' : String) : Prop where
  /-- Both are spellings of the key, or none. -/
  spells : k.Spells name ↔ k.Spells name'
  /-- If the spelling changes, neither object has both spellings. -/
  absent : k.Spells name → name ≠ name' →
    entries.has name' = false ∧ entries'.has name = false

theorem NameKept.symm {k : Key} {entries entries' : Entries} {name name' : String}
    (h : NameKept k entries entries' name name') : NameKept k entries' entries name' name where
  spells := h.spells.symm
  absent hname hne := (h.absent (h.spells.2 hname) hne.symm).symm

/-- The objects keep the names of a key, entry by entry. -/
def KeptNames (k : Key) (entries entries' : Entries) : Prop :=
  List.Forall₂ (fun e e' => NameKept k entries entries' e.1 e'.1) entries entries'

section Turned

variable {keys : List Key} {inside : Key → Value → Value → Prop} {entries entries' : Entries}
  {k : Key} {e e' : String × Value}

theorem Turned.nameKept (h : Turned keys inside entries entries' e e') (hkeys : Key.Separate keys)
    (hk : k ∈ keys) : NameKept k entries entries' e.1 e'.1 := by
  cases h with
  | same e => exact ⟨Iff.rfl, fun _ hne => absurd rfl hne⟩
  | value => exact ⟨Iff.rfl, fun _ hne => absurd rfl hne⟩
  | spelling hl hname hname' habsent habsent' =>
    refine ⟨⟨fun h => ?_, fun h => ?_⟩, fun _ _ => ⟨habsent, habsent'⟩⟩
    · exact hkeys.eq hk hl h hname ▸ hname'
    · exact hkeys.eq hk hl h hname' ▸ hname

/-- The entry of a key keeps its value, or has a related one. -/
theorem Turned.related (h : Turned keys inside entries entries' e e') (hkeys : Key.Separate keys)
    (hrefl : ∀ k v, inside k v v) (hk : k ∈ keys) (hname : k.Spells e.1) :
    inside k e.2 e'.2 := by
  cases h with
  | same e => exact hrefl k e.2
  | value hl huses hvalue => exact hkeys.eq hk hl hname (Key.uses_iff_has.1 huses).1 ▸ hvalue
  | spelling hl hname' _ _ _ hvalue => exact hkeys.eq hk hl hname hname' ▸ hvalue

end Turned

/-- Items that are related one by one are members of their lists. -/
theorem forall₂_and_mem {α β : Type} {R : α → β → Prop} {l : List α} {l' : List β}
    (h : List.Forall₂ R l l') : List.Forall₂ (fun a b => R a b ∧ a ∈ l ∧ b ∈ l') l l' :=
  List.forall₂_iff_zip.2 ⟨h.length_eq, fun hab => ⟨(List.forall₂_iff_zip.1 h).2 hab,
    List.of_mem_zip hab⟩⟩

namespace Respelled

variable {keys : List Key} {inside : Key → Value → Value → Prop} {entries entries' : Entries}
  {k : Key} {name : String}

/-- Each key leads to related values. -/
theorem rel_value? (h : Respelled keys inside entries entries') (hkeys : Key.Separate keys)
    (hrefl : ∀ k v, inside k v v) (hk : k ∈ keys) :
    Option.Rel (inside k) (k.value? entries) (k.value? entries') := by
  have hpairs := forall₂_and_mem h
  by_cases hkept : ∀ p ∈ entries.zip entries', k.Spells p.1.1 → p.1.1 = p.2.1
  · -- the key keeps its spelling, so that both spellings lead to related values
    have hfind : ∀ name, k.Spells name →
        Option.Rel (inside k) (entries.find? name) (entries'.find? name) := by
      intro name hname
      refine rel_find? (List.forall₂_iff_zip.2 ⟨h.length_eq, fun {e e'} hp => ?_⟩)
      have hturned := (List.forall₂_iff_zip.1 h).2 hp
      have hspells := (hturned.nameKept hkeys hk).spells
      refine ⟨⟨?_, ?_⟩, ?_⟩
      · rintro rfl
        exact (hkept _ hp hname).symm
      · rintro rfl
        exact hkept _ hp (hspells.2 hname)
      · rintro rfl
        exact hturned.related hkeys hrefl hk hname
    rw [Key.value?_eq, Key.value?_eq]
    have hprimary := hfind k.primary (.inl rfl)
    generalize entries.find? k.primary = v at hprimary ⊢
    generalize entries'.find? k.primary = v' at hprimary ⊢
    cases hprimary with
    | some hvalue => exact .some hvalue
    | none => exact hfind k.other (.inr rfl)
  · -- the key changes its spelling, and neither object has both
    push Not at hkept
    obtain ⟨⟨a, a'⟩, hp, hname, hne⟩ := hkept
    have hkept := ((List.forall₂_iff_zip.1 h).2 hp).nameKept hkeys hk
    have hname' := hkept.spells.1 hname
    obtain ⟨habsent, habsent'⟩ := hkept.absent hname hne
    rw [Key.value?_of_absent hname hname' hne habsent,
      Key.value?_of_absent hname' hname hne.symm habsent']
    refine rel_find? (hpairs.imp fun e e' ⟨hturned, hmem, hmem'⟩ => ?_)
    have hspells := (hturned.nameKept hkeys hk).spells
    refine ⟨⟨fun heq => ?_, fun heq => ?_⟩, fun heq => ?_⟩
    · refine (hname.eq_or_eq hname' hne (hspells.1 (heq ▸ hname))).resolve_left fun heq' => ?_
      rw [← heq', has_iff_exists.2 ⟨e', hmem', rfl⟩] at habsent'
      cases habsent'
    · refine (hname.eq_or_eq hname' hne (hspells.2 (heq ▸ hname'))).resolve_right fun heq' => ?_
      rw [← heq', has_iff_exists.2 ⟨e, hmem, rfl⟩] at habsent
      cases habsent
    · exact hturned.related hkeys hrefl hk (heq ▸ hname)

/-- Two objects keep the names of a key, each in the eyes of the other. -/
theorem keptNames (h : Respelled keys inside entries entries') (hkeys : Key.Separate keys)
    (hk : k ∈ keys) : KeptNames k entries entries' :=
  h.imp fun _ _ hturned => hturned.nameKept hkeys hk

end Respelled

/-- A name that both objects have is used for a key in the second if it is in the first. -/
theorem KeptNames.uses {k : Key} {entries entries' : Entries} {name : String}
    (h : KeptNames k entries entries') (hname : entries'.has name = true)
    (huses : k.uses entries name = true) : k.uses entries' name = true := by
  obtain ⟨hspells, -, hfirst⟩ := Key.uses_iff_has.1 huses
  refine Key.uses_iff_has.2 ⟨hspells, hname, fun hne => ?_⟩
  by_contra hprimary
  rw [Bool.not_eq_false] at hprimary
  obtain ⟨e', hmem', heq'⟩ := has_iff_exists.1 hprimary
  obtain ⟨e, -, hkept, hmem, -⟩ := exists_of_mem_right (forall₂_and_mem h) hmem'
  have hspells' : k.Spells e.1 := hkept.spells.2 (.inl heq')
  have hhas : entries.has e.1 = true := has_iff_exists.2 ⟨e, hmem, rfl⟩
  by_cases heq : e.1 = k.primary
  · rw [heq, hfirst hne] at hhas
    cases hhas
  · -- the entry would have left the name behind
    have hother : e.1 = name := (hspells'.resolve_left heq).trans (hspells.resolve_left hne).symm
    rw [← hother, (hkept.absent hspells' (heq' ▸ heq)).2] at hname
    cases hname

theorem KeptNames.symm {k : Key} {entries entries' : Entries} (h : KeptNames k entries entries') :
    KeptNames k entries' entries :=
  List.Forall₂.flip (h.imp fun _ _ => NameKept.symm)

/-- What is selected from two lists is the same, if items that go together are selected together and
then are the same. -/
theorem filter_eq_of_forall₂ {α : Type} {p q : α → Bool} {l l' : List α}
    (h : List.Forall₂ (fun a b => p a = q b ∧ (p a = true → a = b)) l l') :
    l.filter p = l'.filter q := by
  induction h with
  | nil => rfl
  | @cons a b l l' h _ ih =>
    obtain ⟨hpq, heq⟩ := h
    rw [List.filter_cons, List.filter_cons, ← hpq, ih]
    split
    · rename_i ha
      rw [heq ha]
    · rfl

namespace Respelled

variable {keys : List Key} {inside : Key → Value → Value → Prop} {entries entries' : Entries}

/-- The entries that no key is for stay the same. -/
theorem unknown_eq (h : Respelled keys inside entries entries') (hkeys : Key.Separate keys) :
    entries.unknown keys = entries'.unknown keys := by
  unfold Entries.unknown
  refine filter_eq_of_forall₂ ((forall₂_and_mem h).imp fun e e' ⟨hturned, hmem, hmem'⟩ => ?_)
  have hhas : entries.has e.1 = true := has_iff_exists.2 ⟨e, hmem, rfl⟩
  have hhas' : entries'.has e'.1 = true := has_iff_exists.2 ⟨e', hmem', rfl⟩
  have hknown : ∀ {k} {entries : Entries} {name}, k ∈ keys → k.uses entries name = true →
      (!keys.any fun k => k.uses entries name) = false := by
    intro k entries name hk huses
    rw [Bool.not_eq_false', List.any_eq_true]
    exact ⟨k, hk, huses⟩
  cases hturned with
  | same e =>
    refine ⟨congrArg (!·) ?_, fun _ => rfl⟩
    rw [Bool.eq_iff_iff, List.any_eq_true, List.any_eq_true]
    constructor
    · rintro ⟨k, hk, huses⟩
      exact ⟨k, hk, (h.keptNames hkeys hk).uses hhas' huses⟩
    · rintro ⟨k, hk, huses⟩
      exact ⟨k, hk, (h.keptNames hkeys hk).symm.uses hhas huses⟩
  | value hk huses =>
    rw [hknown hk huses, hknown hk ((h.keptNames hkeys hk).uses hhas' huses)]
    exact ⟨rfl, fun h => (Bool.false_ne_true h).elim⟩
  | @spelling k name name' v w hk hname hname' habsent habsent' =>
    have hne : name ≠ name' := by
      rintro rfl
      rw [hhas] at habsent
      cases habsent
    have hprimary : ∀ {entries : Entries} {one two : String}, k.Spells one → k.Spells two →
        one ≠ two → entries.has one = true → entries.has two = false →
          k.uses entries one = true := by
      intro entries one two hone htwo hne hhas habsent
      refine Key.uses_iff_has.2 ⟨hone, hhas, fun hfirst => ?_⟩
      rcases hone.eq_or_eq htwo hne (.inl rfl : k.Spells k.primary) with heq | heq
      · exact absurd heq.symm hfirst
      · rw [heq, habsent]
    rw [hknown hk (hprimary hname hname' hne hhas habsent),
      hknown hk (hprimary hname' hname hne.symm hhas' habsent')]
    exact ⟨rfl, fun h => (Bool.false_ne_true h).elim⟩

/-- Keys lead to related values, and the other entries stay the same. -/
theorem known (h : Respelled keys inside entries entries') (hkeys : Key.Separate keys)
    (hrefl : ∀ k v, inside k v v) : Known keys inside entries entries' where
  value? _ hk := h.rel_value? hkeys hrefl hk
  unknown := h.unknown_eq hkeys

end Respelled

end Entries

/-! ### What may differ inside the objects of a definition -/

/-- What may differ under a key of a component context. -/
def ComponentContext.underKey (k : Key) : Value → Value → Prop :=
  if k = ⟨"aiPrompt", "ai_prompt"⟩ then Value.InObject (Entries.Spelled PromptContext.keys)
  else if k = ⟨"abTesting", "ab_testing"⟩ then
    Value.InObject (Entries.Spelled VariantContext.keys)
  else Eq

namespace FieldConfig

/-- What may differ under a key of a configuration, by its type. -/
def underKey : FieldType → Key → Value → Value → Prop
  | .component, k =>
    if k = .plain "context" then
      Value.InObject (Entries.Respelled ComponentContext.keys ComponentContext.underKey)
    else Eq
  | _, _ => Eq

/-- A configuration in other spellings, where one without a tag of its own inherits the tag.  A
configuration whose tag names no type has no keys but the tag. -/
def Respelled (inherited : Option Value) (config config' : Entries) : Prop :=
  match typeOf? ((config.find? "type").or inherited) with
  | some type => Entries.Respelled (keys type) (underKey type) config config'
  | none => config.find? "type" = config'.find? "type"

end FieldConfig

namespace Field

/-- What may differ under a key of a field. -/
def underKey (entries : Entries) (k : Key) : Value → Value → Prop :=
  if k = .plain "config" then Value.InObject (FieldConfig.Respelled (entries.find? "type"))
  else if k = .plain "validation" then Value.InObject (Entries.Spelled FieldRules.keys)
  else Eq

/-- A field in other spellings. -/
def Respelled (entries entries' : Entries) : Prop :=
  Entries.Respelled keys (underKey entries) entries entries'

end Field

/-- What may differ under a key of a model. -/
def ContentModel.underKey (k : Key) : Value → Value → Prop :=
  if k = .plain "fields" then Value.InItems (Value.InObject Field.Respelled)
  else if k = .plain "settings" then Value.InObject (Entries.Spelled ModelSettings.keys)
  else Eq

/-- What may differ under a key of a component. -/
def Component.underKey (k : Key) : Value → Value → Prop :=
  if k = .plain "fields" then Value.InItems (Value.InObject Field.Respelled) else Eq

/-- A raw definition in other spellings, in any of its objects. -/
def DefinitionKind.Respelled : DefinitionKind → Value → Value → Prop
  | model => Value.InObject (Entries.Respelled ContentModel.keys ContentModel.underKey)
  | component => Value.InObject (Entries.Respelled Component.keys Component.underKey)

end ContentSchema
