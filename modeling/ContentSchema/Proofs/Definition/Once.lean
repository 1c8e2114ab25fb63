import ContentSchema.Proofs.Definition.Dump

/-!
# Definitions that give every key once

A raw definition gives every key once if none of its objects has a key under both of its spellings
(`DefinitionKind.Once`).  What is read from it is tidy, so that validating its value gives it back:
validation is idempotent (`validate_toValue_of_validate`).
-/

namespace ContentSchema

variable {α β : Type}

/-! ### Results with a property -/

/-- What is accepted, if anything is, has the property. -/
def Checked.Grants (P : α → Prop) (x : Checked α) : Prop := ∀ a, x = .accepted a → P a

namespace Checked.Grants

variable {P : α → Prop} {Q : β → Prop} {x : Checked α}

theorem trivial : Grants (fun _ => True) x := fun _ _ => True.intro

theorem map {f : α → β} (hf : ∀ a, P a → Q (f a)) (h : Grants P x) : Grants Q (f <$> x) := by
  intro b hb
  obtain ⟨a, ha, rfl⟩ := map_eq_accepted.1 hb
  exact hf a (h a ha)

theorem seq {f : Checked (α → β)} (hf : Grants (fun f => ∀ a, P a → Q (f a)) f) (h : Grants P x) :
    Grants Q (f <*> x) := by
  intro b hb
  obtain ⟨f, a, hf', ha, rfl⟩ := seq_eq_accepted.1 hb
  exact hf f hf' a (h a ha)

theorem within (h : Grants P x) (segment : String) : Grants P (x.within segment) :=
  fun a ha => h a (within_eq_accepted.1 ha)

theorem ensure (h : Grants P x) (test : α → Option Fault) : Grants P (x.ensure test) :=
  fun a ha => h a (ensure_eq_accepted.1 ha).1

end Checked.Grants

open Checked

/-! ### Values whose parts keep a rule -/

namespace Value

/-- The entries keep a rule, if the value is an object. -/
def OfObject (E : Entries → Prop) : Value → Prop
  | .object entries => E entries
  | _ => True

/-- The items keep a rule, if the value is a list. -/
def OfItems (E : Value → Prop) : Value → Prop
  | .list items => ∀ v ∈ items, E v
  | _ => True

instance {E : Entries → Prop} [DecidablePred E] : DecidablePred (OfObject E)
  | .object entries => inferInstanceAs (Decidable (E entries))
  | .null | .bool _ | .int _ | .float _ | .text _ | .stamp _ _ | .list _ => isTrue True.intro

instance {E : Value → Prop} [DecidablePred E] : DecidablePred (OfItems E)
  | .list items => inferInstanceAs (Decidable (∀ v ∈ items, E v))
  | .null | .bool _ | .int _ | .float _ | .text _ | .stamp _ _ | .object _ => isTrue True.intro

end Value

namespace Reader

variable {read : Reader α} {E : Value → Prop} {P : α → Prop}

/-- What is read of values that keep a rule has the property. -/
def Turns (read : Reader α) (E : Value → Prop) (P : α → Prop) : Prop :=
  ∀ v, E v → Grants P (read v)

theorem turns_object {record : String} {E : Entries → Prop} {read : Entries → Checked α}
    (h : ∀ entries, E entries → Grants P (read entries)) :
    Turns (Record.object record read) (Value.OfObject E) P := by
  intro v hv a ha
  cases v with
  | object entries => exact h entries hv a ha
  | null | bool | int | float | text | stamp | list => cases ha

theorem Turns.nullable (h : Turns read E P) :
    Turns (nullable read) E fun o => ∀ a ∈ o, P a := by
  intro v hv
  rw [nullable.eq_def]
  split
  · rintro _ ha a rfl
    cases ha
  · refine (h v hv).map ?_
    intro a ha b hb
    rwa [← Option.some.inj hb]

theorem Turns.nonEmptyList (h : Turns read E P) :
    Turns (nonEmptyList read) (Value.OfItems E) fun as => as ≠ [] ∧ ∀ a ∈ as, P a := by
  intro v hv as has
  obtain ⟨items, rfl, hitems⟩ := nonEmptyList_eq_accepted has
  refine ⟨?_, fun a ha => ?_⟩
  · rintro rfl
    obtain ⟨-, hnil⟩ := ensure_eq_accepted.1 has
    cases hnil
  · obtain ⟨item, hmem, hread⟩ := exists_of_mem_right hitems ha
    exact h item (hv item hmem) a hread

theorem Turns.either {first second : Reader α} {firstName secondName : String}
    (hfirst : Turns first E P) (hsecond : Turns second E P) :
    Turns (either firstName first secondName second) E P := by
  intro v hv a ha
  rw [Reader.either] at ha
  split at ha
  · rename_i hread
    cases ha
    exact hfirst v hv a hread
  · rename_i hread
    cases ha
    exact hsecond v hv a hread
  · cases ha

theorem turns_nonEmptyText (E : Value → Prop) : Turns nonEmptyText E (· ≠ "") :=
  fun _ _ _ h => (nonEmptyText_eq_accepted h).2

end Reader

open Reader (Turns)

/-! ### Objects that give every key once -/

/-- The names differ, no key is there under two spellings, and the values keep the rules of their
names. -/
structure Entries.Once (keys : List Key) (inside : String → Value → Prop) (entries : Entries) :
    Prop where
  /-- The names differ. -/
  nodup : (entries.map Prod.fst).Nodup
  /-- No key is there under two spellings. -/
  single : ∀ k ∈ keys, entries.has k.primary = true → entries.has k.other = true →
    k.primary = k.other
  /-- The values keep the rules of their names. -/
  inside : ∀ e ∈ entries, inside e.1 e.2

instance {keys : List Key} {inside : String → Value → Prop} [∀ name v, Decidable (inside name v)] :
    DecidablePred (Entries.Once keys inside) := fun entries =>
  decidable_of_iff
    ((entries.map Prod.fst).Nodup ∧
      (∀ k ∈ keys, entries.has k.primary = true → entries.has k.other = true →
        k.primary = k.other) ∧
      ∀ e ∈ entries, inside e.1 e.2)
    ⟨fun ⟨hnodup, hsingle, hinside⟩ => ⟨hnodup, hsingle, hinside⟩,
      fun h => ⟨h.nodup, h.single, h.inside⟩⟩

/-- Every key is given once, and the values may be anything. -/
abbrev Entries.Single (keys : List Key) : Entries → Prop := Entries.Once keys fun _ _ => True

theorem Entries.mem_of_find?_eq_some {entries : Entries} {name : String} {v : Value}
    (h : entries.find? name = some v) : (name, v) ∈ entries := by
  obtain ⟨e, he, rfl⟩ := Option.map_eq_some_iff.1 h
  obtain rfl : e.1 = name := by simpa using List.find?_some he
  exact List.mem_of_find?_eq_some he

namespace Entries.Once

variable {keys : List Key} {inside : String → Value → Prop} {entries : Entries} {k : Key}
  {read : Reader α} {P : α → Prop}

/-- An entry under a spelling of a key is the one that is read. -/
theorem find?_key (h : Once keys inside entries) (hk : k ∈ keys) {e : String × Value}
    (he : e ∈ entries) (hname : e.1 = k.primary ∨ e.1 = k.other) : k.uses entries e.1 = true := by
  have hfind : entries.find? e.1 = some e.2 := find?_eq_of_mem h.nodup he
  refine Key.uses_iff.2 ⟨e.2, ?_⟩
  rw [Key.find?]
  by_cases hprimary : e.1 = k.primary
  · rw [← hprimary, hfind]
  · have hother : e.1 = k.other := hname.resolve_left hprimary
    cases hfirst : entries.find? k.primary with
    | none => rw [← hother, hfind]; rfl
    | some v =>
      -- the key would be there twice
      refine absurd (hother.trans (h.single k hk ?_ ?_).symm) hprimary
      · rw [has_iff_find?_isSome, hfirst]
        rfl
      · rw [has_iff_find?_isSome, ← hother, hfind]
        rfl

/-- The entries that are not read have names of their own. -/
theorem foreign (h : Once keys inside entries) : (entries.unknown keys).Foreign keys where
  nodup := h.nodup.sublist (List.filter_sublist.map Prod.fst)
  ne e he k hk := by
    obtain ⟨hmem, hunused⟩ := List.mem_filter.1 he
    rw [Bool.not_eq_true', List.any_eq_false] at hunused
    exact ⟨fun hname => hunused k hk (h.find?_key hk hmem (Or.inl hname)),
      fun hname => hunused k hk (h.find?_key hk hmem (Or.inr hname))⟩

theorem keepUnknown (h : Once keys inside entries) :
    Grants (·.Foreign keys) (Record.keepUnknown keys entries) := by
  rintro _ hextras
  cases hextras
  exact h.foreign

/-- Another value under a name that is no spelling of a key with two leaves every key given once. -/
theorem insert {inside' : String → Value → Prop} {name : String} {v : Value}
    (h : Once keys inside entries)
    (hname : ∀ k ∈ keys, k.primary = name ∨ k.other = name → k.primary = k.other)
    (hvalue : inside' name v)
    (hrest : ∀ e ∈ entries, e.1 ≠ name → inside e.1 e.2 → inside' e.1 e.2) :
    Once keys inside' (entries.insert name v) := by
  have hnodup : ((entries.insert name v).map Prod.fst).Nodup :=
    nodup_keys_putBy (a := (name, v)) h.nodup
  have hsame : ∀ other, other ≠ name →
      (entries.insert name v).has other = entries.has other := by
    intro other hother
    rw [Bool.eq_iff_iff, has_iff_find?_isSome, has_iff_find?_isSome, find?_insert_of_ne hother]
  refine ⟨hnodup, fun k hk hprimary hother => ?_, fun e he => ?_⟩
  · by_cases hspelled : k.primary = name ∨ k.other = name
    · exact hname k hk hspelled
    · obtain ⟨hne, hne'⟩ := not_or.1 hspelled
      exact h.single k hk (hsame _ hne ▸ hprimary) (hsame _ hne' ▸ hother)
  · have hfind : (entries.insert name v).find? e.1 = some e.2 := find?_eq_of_mem hnodup he
    by_cases heq : e.1 = name
    · rw [heq, find?_insert_self] at hfind
      rwa [heq, ← Option.some.inj hfind]
    · rw [find?_insert_of_ne heq] at hfind
      have hmem : e ∈ entries := mem_of_find?_eq_some hfind
      exact hrest e hmem heq (h.inside e hmem)

section Read

variable (h : Once keys inside entries) (hprimary : Turns read (inside k.primary) P)
  (hother : Turns read (inside k.other) P)
include h hprimary hother

theorem grants_found {name : String} {v : Value} (hfind : k.find? entries = some (name, v)) :
    Grants P ((read v).within name) := by
  obtain ⟨hname, hvalue⟩ := Key.of_find?_eq_some hfind
  have hinside : inside name v := h.inside _ (mem_of_find?_eq_some hvalue)
  rcases hname with rfl | rfl
  · exact (hprimary v hinside).within _
  · exact (hother v hinside).within _

theorem required : Grants P (Record.required k read entries) := by
  rw [Record.required]
  split
  · rename_i hfind
    exact h.grants_found hprimary hother hfind
  · rintro _ ha
    cases ha

theorem defaulted {default : α} (hdefault : P default) :
    Grants P (Record.defaulted k default read entries) := by
  rw [Record.defaulted]
  split
  · rename_i hfind
    exact h.grants_found hprimary hother hfind
  · rintro _ ha
    cases ha
    exact hdefault

theorem optionally : Grants (fun o => ∀ a ∈ o, P a) (Record.optionally k read entries) :=
  h.defaulted hprimary.nullable hother.nullable nofun

end Read

end Entries.Once

/-! ### Definitions that give every key once -/

namespace ComponentContext

/-- The objects inside a component context give every key once. -/
def onceInside (name : String) (v : Value) : Prop :=
  if name ∈ ["aiPrompt", "ai_prompt"] then v.OfObject (Entries.Single PromptContext.keys)
  else if name ∈ ["abTesting", "ab_testing"] then v.OfObject (Entries.Single VariantContext.keys)
  else True

instance (name : String) (v : Value) : Decidable (onceInside name v) :=
  inferInstanceAs (Decidable (ite _ _ _))

end ComponentContext

namespace FieldConfig

/-- The objects inside a configuration give every key once, by its type. -/
def onceInside : FieldType → String → Value → Prop
  | .select, name, v =>
    if name = "options" then v.OfItems (Value.OfObject (Entries.Single SelectOption.keys)) else True
  | .component, name, v =>
    if name = "context" then
      v.OfObject (Entries.Once ComponentContext.keys ComponentContext.onceInside)
    else True
  | _, _, _ => True

instance : ∀ type name v, Decidable (onceInside type name v)
  | .select, _, _ | .component, _, _ => inferInstanceAs (Decidable (ite _ _ _))
  | .text, _, _ | .rich, _, _ | .number, _, _ | .boolean, _, _ | .date, _, _ | .json, _, _
  | .media, _, _ | .relation, _, _ => isTrue True.intro

/-- A configuration gives every key once, where one without a tag of its own inherits the tag.  A
configuration whose tag names no type is not read as a record. -/
def Once (inherited : Option Value) (config : Entries) : Prop :=
  ∀ type ∈ typeOf? ((config.find? "type").or inherited),
    Entries.Once (keys type) (onceInside type) config

instance (inherited : Option Value) : DecidablePred (Once inherited) := fun config =>
  inferInstanceAs (Decidable (∀ type ∈ typeOf? ((config.find? "type").or inherited),
    Entries.Once (keys type) (onceInside type) config))

end FieldConfig

namespace Field

/-- The objects inside a field give every key once. -/
def onceInside (entries : Entries) (name : String) (v : Value) : Prop :=
  if name = "config" then v.OfObject (FieldConfig.Once (entries.find? "type"))
  else if name = "validation" then v.OfObject (Entries.Single FieldRules.keys)
  else True

instance (entries : Entries) (name : String) (v : Value) :
    Decidable (onceInside entries name v) :=
  inferInstanceAs (Decidable (ite _ _ _))

/-- A field gives every key once. -/
def Once (entries : Entries) : Prop := Entries.Once keys (onceInside entries) entries

instance : DecidablePred Once := fun entries =>
  inferInstanceAs (Decidable (Entries.Once keys (onceInside entries) entries))

end Field

namespace ContentModel

/-- The objects inside a model give every key once. -/
def onceInside (name : String) (v : Value) : Prop :=
  if name = "fields" then v.OfItems (Value.OfObject Field.Once)
  else if name = "settings" then v.OfObject (Entries.Single ModelSettings.keys)
  else True

instance (name : String) (v : Value) : Decidable (onceInside name v) :=
  inferInstanceAs (Decidable (ite _ _ _))

end ContentModel

namespace Component

/-- The objects inside a component give every key once. -/
def onceInside (name : String) (v : Value) : Prop :=
  if name = "fields" then v.OfItems (Value.OfObject Field.Once) else True

instance (name : String) (v : Value) : Decidable (onceInside name v) :=
  inferInstanceAs (Decidable (ite _ _ _))

end Component

/-- No object of a raw definition gives a key twice. -/
def DefinitionKind.Once : DefinitionKind → Value → Prop
  | model => Value.OfObject (Entries.Once ContentModel.keys ContentModel.onceInside)
  | component => Value.OfObject (Entries.Once Component.keys Component.onceInside)

instance : ∀ kind : DefinitionKind, DecidablePred kind.Once
  | .model | .component => fun v => inferInstanceAs (Decidable (v.OfObject _))

/-! ### What is read of them -/

theorem FieldRules.turns_read :
    Turns read (Value.OfObject (Entries.Single keys)) (·.extras.Foreign keys) := by
  refine Reader.turns_object fun entries h => ?_
  refine .seq ?_ h.keepUnknown
  iterate 17 refine .seq ?_ .trivial
  refine .map ?_ .trivial
  intros
  assumption

theorem ModelSettings.turns_read :
    Turns read (Value.OfObject (Entries.Single keys)) (·.extras.Foreign keys) := by
  refine Reader.turns_object fun entries h => ?_
  refine .seq ?_ h.keepUnknown
  refine .seq ?_ .trivial
  refine .map ?_ .trivial
  intros
  assumption

theorem PromptContext.turns_read :
    Turns read (Value.OfObject (Entries.Single keys)) (·.extras.Foreign keys) := by
  refine Reader.turns_object fun entries h => ?_
  refine .seq ?_ h.keepUnknown
  iterate 2 refine .seq ?_ .trivial
  refine .map ?_ .trivial
  intros
  assumption

theorem Reader.turns_intBetween (E : Value → Prop) (least greatest : Int) :
    Turns (intBetween least greatest) E fun n => least ≤ n ∧ n ≤ greatest := by
  intro v _ n hn
  obtain ⟨-, hn⟩ := ensure_eq_accepted.1 hn
  split at hn
  · cases hn
  · split at hn
    · cases hn
    · omega

theorem VariantContext.turns_read :
    Turns read (Value.OfObject (Entries.Single keys)) Tidy := by
  refine Reader.turns_object fun entries h => ?_
  have hcount := Reader.turns_intBetween (fun _ => True) 2 5
  refine .seq ?_ h.keepUnknown
  refine .seq ?_ (h.defaulted hcount hcount (by decide))
  refine .map ?_ .trivial
  intro _ _ _ hcount _ hforeign
  exact ⟨hcount, hforeign⟩

theorem ComponentContext.turns_read :
    Turns read (Value.OfObject (Entries.Once keys onceInside)) Tidy := by
  refine Reader.turns_object fun entries h => ?_
  refine .seq ?_ h.keepUnknown
  refine .seq ?_ (h.optionally VariantContext.turns_read VariantContext.turns_read)
  refine .map ?_ (h.optionally PromptContext.turns_read PromptContext.turns_read)
  intro _ hprompt _ hvariants _ hforeign
  exact ⟨hprompt, hvariants, hforeign⟩

/-- A choice that is an object has a label. -/
theorem SelectOption.turns_read :
    Turns read (Value.OfObject (Entries.Single keys)) Tidy := by
  refine Turns.either (fun v _ => ?_) (Reader.turns_object fun entries h => ?_)
  · exact .map (fun _ _ => True.intro) .trivial
  · refine .seq ?_ h.keepUnknown
    refine .seq ?_ .trivial
    refine .map ?_ .trivial
    intro _ _ _ _ _ hforeign
    exact hforeign

namespace FieldConfig

variable {type : FieldType} {inherited : Option Value} {config : Entries}

/-- A configuration with neither choices nor a context is tidy if its unknown entries have names of
their own. -/
theorem grants_map_of_foreign {make : α → FieldConfig} {x : Checked α}
    (hselect : ∀ a s, make a ≠ .select s) (hcomponent : ∀ a s, make a ≠ .component s)
    (h : Grants (fun a => (make a).extras.Foreign (keys (make a).type)) x) :
    Grants (fun c => c.Valid → c.Tidy) (make <$> x) :=
  h.map fun a hforeign hvalid => ⟨hvalid, fun s hs => absurd hs (hselect a s),
    fun s hs => absurd hs (hcomponent a s), hforeign⟩

/-- What is read as a configuration of a type is tidy if nothing that it refers to is missing. -/
theorem grants_readAs (h : Entries.Once (keys type) (onceInside type) config) :
    Grants (fun c => c.Valid → c.Tidy) (readAs type (.object config)) := by
  cases type with
  | text | rich | json | number | boolean | date | media | relation =>
    refine grants_map_of_foreign (fun _ => nofun) (fun _ => nofun) ?_
    refine .seq ?_ h.keepUnknown
    repeat refine .seq ?_ .trivial
    refine .map ?_ .trivial
    intros
    assumption
  | select =>
    have hoptions := SelectOption.turns_read.nonEmptyList
    refine .map (P := fun c => (c.options ≠ [] ∧ ∀ o ∈ c.options, o.Tidy) ∧
      c.extras.Foreign SelectConfig.keys) (fun _ hc hvalid => ⟨hvalid, ?_, nofun, hc.2⟩) ?_
    · rintro _ ⟨⟩
      exact hc.1
    refine .seq ?_ h.keepUnknown
    refine .seq ?_ .trivial
    refine .seq ?_ (h.required hoptions hoptions)
    refine .seq ?_ .trivial
    refine .map ?_ .trivial
    intro _ _ _ _ _ hoptions _ _ _ hforeign
    exact ⟨hoptions, hforeign⟩
  | component =>
    have hcontext := ComponentContext.turns_read
    refine .map (P := fun c => (∀ x ∈ c.context, x.Tidy) ∧ c.extras.Foreign ComponentConfig.keys)
      (fun _ hc hvalid => ⟨hvalid, nofun, ?_, hc.2⟩) ?_
    · rintro _ ⟨⟩
      exact hc.1
    refine .seq ?_ h.keepUnknown
    refine .seq ?_ (h.optionally hcontext hcontext)
    iterate 2 refine .seq ?_ .trivial
    refine .map ?_ .trivial
    intro _ _ _ _ _ _ _ hcontext _ hforeign
    exact ⟨hcontext, hforeign⟩

/-- A configuration that gives every key once still does with the tag it inherits. -/
theorem once_tagged (h : Entries.Once (keys type) (onceInside type) config) :
    Entries.Once (keys type) (onceInside type) (tagged inherited config) := by
  have htype : ∀ k ∈ keys type, k.primary = "type" ∨ k.other = "type" → k.primary = k.other := by
    cases type <;> decide
  cases inherited with
  | none => exact h
  | some tag =>
    rw [tagged.eq_1]
    split
    · exact h
    · refine h.insert htype ?_ fun _ _ _ hinside => hinside
      cases type <;> exact True.intro

theorem Once.grants_read (h : Once inherited config) :
    Grants Tidy (read (.object (tagged inherited config))) := by
  intro c hread
  have hvalid : c.Valid := valid_of_read hread
  rw [read_object, find?_tagged_type] at hread
  rw [Once] at h
  generalize (config.find? "type").or inherited = tag at h hread
  cases tag with
  | none => cases hread
  | some tag =>
    dsimp only at hread
    generalize typeOf? (some tag) = type at h hread
    cases type with
    | none => cases hread
    | some type => exact (grants_readAs (once_tagged (h type rfl))).within _ c hread hvalid

end FieldConfig

namespace Field

/-- The rule for the values of a field whose configuration names its type. -/
def readOnceInside (name : String) (v : Value) : Prop :=
  if name = "config" then Grants FieldConfig.Tidy (FieldConfig.read v)
  else if name = "validation" then v.OfObject (Entries.Single FieldRules.keys)
  else True

theorem nodup_inheritType {entries : Entries} (h : (entries.map Prod.fst).Nodup) :
    ((inheritType entries).map Prod.fst).Nodup := by
  rw [inheritType]
  split
  · split
    · exact h
    · exact nodup_keys_putBy (a := ("config", _)) h
  · exact h

theorem Once.inheritType {entries : Entries} (h : Once entries) :
    Entries.Once keys readOnceInside (inheritType entries) := by
  have hnodup := nodup_inheritType h.nodup
  have hplain : ∀ k ∈ keys, k.primary = k.other := by decide
  refine ⟨hnodup, fun k hk _ _ => hplain k hk, fun e he => ?_⟩
  have hfind : (Field.inheritType entries).find? e.1 = some e.2 := Entries.find?_eq_of_mem hnodup he
  by_cases hname : e.1 = "config"
  · rw [hname, find?_inheritType_config] at hfind
    obtain ⟨v, hv, heq⟩ := Option.map_eq_some_iff.1 hfind
    have hinside : Value.OfObject (FieldConfig.Once (entries.find? "type")) v :=
      h.inside _ (Entries.mem_of_find?_eq_some hv)
    rw [hname, ← heq]
    cases v with
    | object config => exact FieldConfig.Once.grants_read hinside
    | null | bool | int | float | text | stamp | list => exact fun _ hread => nomatch hread
  · rw [find?_inheritType hname] at hfind
    have hinside := h.inside e (Entries.mem_of_find?_eq_some hfind)
    rw [onceInside, if_neg hname] at hinside
    rwa [readOnceInside, if_neg hname]

/-- What is read of the parts of a field is tidy if the field is valid. -/
theorem grants_readParts {entries : Entries} (h : Entries.Once keys readOnceInside entries) :
    Grants (fun f => f.Valid → f.Tidy) (readParts entries) := by
  have hconfig : Turns FieldConfig.read (readOnceInside "config") FieldConfig.Tidy := fun _ hv => hv
  have hrules : Turns FieldRules.read (readOnceInside "validation")
      (·.extras.Foreign FieldRules.keys) := FieldRules.turns_read
  have hlabel := Reader.turns_nonEmptyText (readOnceInside "label")
  refine .seq ?_ h.keepUnknown
  refine .seq ?_ .trivial
  refine .seq ?_ (h.optionally hrules hrules)
  iterate 2 refine .seq ?_ .trivial
  refine .seq ?_ (h.optionally hconfig hconfig)
  refine .seq ?_ .trivial
  refine .seq ?_ (h.required hlabel hlabel)
  refine .map ?_ .trivial
  intro _ _ _ hlabel _ _ _ hconfig _ _ _ _ _ hrules _ _ _ hforeign hvalid
  exact ⟨hvalid, hlabel, hconfig, hrules, hforeign⟩

theorem turns_read : Turns read (Value.OfObject Once) Tidy := by
  intro v hv f hread
  have hvalid : f.Valid := (valid_of_read hread).1
  cases v with
  | object entries =>
    obtain ⟨hparts, -⟩ := ensure_eq_accepted.1 hread
    exact grants_readParts (Once.inheritType hv) f hparts hvalid
  | null | bool | int | float | text | stamp | list => cases hread

end Field

theorem ContentModel.tidy_of_check {raw : Value} (h : DefinitionKind.model.Once raw)
    {m : ContentModel} (hcheck : check raw = .accepted m) : m.Tidy := by
  have hvalid : m.Valid := valid_of_check hcheck
  obtain ⟨entries, rfl, hread, -⟩ := checkDefinition_eq_accepted hcheck
  have h : Entries.Once keys onceInside entries := h
  have hname := Reader.turns_nonEmptyText (onceInside "name")
  have hfields : Turns (Reader.nonEmptyList Field.read) (onceInside "fields")
    fun fs => fs ≠ [] ∧ ∀ f ∈ fs, f.Tidy := Field.turns_read.nonEmptyList
  have hsettings : Turns ModelSettings.read (onceInside "settings")
    (·.extras.Foreign ModelSettings.keys) := ModelSettings.turns_read
  have hunset : ModelSettings.unset.extras.Foreign ModelSettings.keys :=
    ⟨List.nodup_nil, nofun⟩
  refine Grants.seq (Q := fun m : ContentModel => m.Valid → m.Tidy) ?_ h.keepUnknown m hread hvalid
  refine .seq ?_ (h.defaulted hsettings hsettings hunset)
  refine .seq ?_ (h.required hfields hfields)
  refine .seq ?_ (h.required hname hname)
  refine .map ?_ .trivial
  intro _ _ _ hname _ hfields _ hsettings _ hforeign hvalid
  exact ⟨hvalid, hname, hfields.1, hfields.2, hsettings, hforeign⟩

theorem Component.tidy_of_check {raw : Value} (h : DefinitionKind.component.Once raw)
    {c : Component} (hcheck : check raw = .accepted c) : c.Tidy := by
  have hvalid : c.Valid := valid_of_check hcheck
  obtain ⟨entries, rfl, hread, -⟩ := checkDefinition_eq_accepted hcheck
  have h : Entries.Once keys onceInside entries := h
  have hname := Reader.turns_nonEmptyText (onceInside "name")
  have hfields : Turns (Reader.nonEmptyList Field.read) (onceInside "fields")
    fun fs => fs ≠ [] ∧ ∀ f ∈ fs, f.Tidy := Field.turns_read.nonEmptyList
  refine Grants.seq (Q := fun c : Component => c.Valid → c.Tidy) ?_ h.keepUnknown c hread hvalid
  refine .seq ?_ (h.required hfields hfields)
  refine .seq ?_ (h.required hname hname)
  refine .map ?_ .trivial
  intro _ _ _ hname _ hfields _ hforeign hvalid
  exact ⟨hvalid, hname, hfields.1, hfields.2, hforeign⟩

/-- Validation is idempotent: the value of what was accepted is accepted too and gives the same
definition, its unknown entries at every level included. -/
theorem validate_toValue_of_validate {raw : Value} :
    (∀ m, DefinitionKind.model.Once raw → ContentModel.validate raw = .ok m →
      ContentModel.validate m.toValue = .ok m) ∧
    (∀ c, DefinitionKind.component.Once raw → Component.validate raw = .ok c →
      Component.validate c.toValue = .ok c) := by
  refine ⟨fun m honce h => ?_, fun c honce h => ?_⟩
  · have hcheck : ContentModel.check raw = .accepted m := validateWith_eq_ok.1 h
    exact validateWith_eq_ok.2 (ContentModel.tidy_of_check honce hcheck).check_toValue
  · have hcheck : Component.check raw = .accepted c := validateWith_eq_ok.1 h
    exact validateWith_eq_ok.2 (Component.tidy_of_check honce hcheck).check_toValue

/-- A letter as a model, in the spelling of editors and with entries that are not known. -/
def rawLetter : Value := .object [
  ("slug", .text "letter"), ("name", .text "Letter"),
  ("fields", .list [
    .object [
      ("key", .text "pages"), ("label", .text "Pages"), ("type", .text "number"),
      ("required", .text "yes"),
      ("config", .object [("unit", .text "sheet"), ("default", .text "7")]),
      ("validation", .object [("int", .int 1), ("max", .text "12"), ("hint", .null)])],
    .object [
      ("key", .text "sign_off"), ("label", .text "Sign-off"), ("type", .text "component"),
      ("config", .object [
        ("slug", .text "phrase"),
        ("context", .object [
          ("aiPrompt", .object [("template", .text "Close kindly"), ("tone", .text "warm")]),
          ("abTesting", .object [("variantCount", .text "4")])])])]]),
  ("settings", .object [("enableI18n", .bool true), ("theme", .text "plain")]),
  ("color", .text "red")]

/-- The letter as it is read. -/
def letter : ContentModel := {
  slug := "letter", name := "Letter"
  fields := [
    { key := "pages", label := "Pages", type := .number
      config := some (.number ⟨none, some (.int 7), none, [("unit", .text "sheet")]⟩)
      required := true, translatable := true, rules := some rules, derived := false, extras := [] },
    { key := "sign_off", label := "Sign-off", type := .component
      config := some (.component ⟨"phrase", false, some {
        prompt := some ⟨"Close kindly", false, true, [("tone", .text "warm")]⟩
        variants := some ⟨false, 4, []⟩
        extras := [] }, []⟩)
      required := false, translatable := true, rules := none, derived := false, extras := [] }]
  settings := ⟨some true, none, [("theme", .text "plain")]⟩
  extras := [("color", .text "red")] }
where
  /-- The rules for the number of pages. -/
  rules : FieldRules := ⟨none, none, none, none, none, none, none, none, some (.int 12), some true,
    none, none, none, none, none, none, none, none, [("hint", .null)]⟩

theorem validate_toValue_letter :
    DefinitionKind.model.Once rawLetter ∧ ContentModel.validate rawLetter = .ok letter ∧
      ContentModel.validate letter.toValue = .ok letter := by
  have honce : DefinitionKind.model.Once rawLetter := by decide
  have hread : ContentModel.validate rawLetter = .ok letter := rfl
  exact ⟨honce, hread, validate_toValue_of_validate.1 letter honce hread⟩

end ContentSchema
