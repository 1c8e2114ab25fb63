import ContentSchema.Compilation.Whole
import ContentSchema.Proofs.Definition.Respelling
import ContentSchema.Run.Definitions

/-!
# Readings do not see spellings

A raw definition in other spellings is accepted as the same definition, or rejected as well; only
the places of issues may differ, as they are named in the spelling that is read
(`DefinitionKind.Respelled.toOption_validate_model`).  Each reader of a record looks its keys up one
by one and keeps the entries that no key is for, and of both respelling leaves what they were
(`Entries.Known`).
-/

namespace ContentSchema

variable {α β γ : Type}

/-! ### Readings with the same result -/

namespace Checked

theorem toOption_map (f : α → β) (x : Checked α) : (f <$> x).toOption = x.toOption.map f := by
  cases x <;> rfl

theorem toOption_seq (f : Checked (α → β)) (x : Checked α) :
    (f <*> x).toOption = f.toOption.bind fun g => x.toOption.map g := by
  cases f <;> cases x <;> rfl

theorem toOption_within (segment : String) (x : Checked α) :
    (x.within segment).toOption = x.toOption := by
  cases x <;> rfl

theorem toOption_ensure (x : Checked α) (test : α → Option Fault) :
    (x.ensure test).toOption = x.toOption.filter fun a => (test a).isNone := by
  cases x with
  | rejected issues => rfl
  | accepted a =>
    simp only [Checked.ensure, andThen, toOption, Option.filter_some]
    cases test a <;> rfl

/-- Both are accepted with the same result, or both are rejected. -/
def SameResult (x y : Checked α) : Prop := x.toOption = y.toOption

namespace SameResult

variable {x y : Checked α}

theorem map (h : SameResult x y) (f : α → β) : SameResult (f <$> x) (f <$> y) := by
  simp only [SameResult, toOption_map, show x.toOption = y.toOption from h]

theorem seq {f g : Checked (α → β)} (hfg : SameResult f g) (h : SameResult x y) :
    SameResult (f <*> x) (g <*> y) := by
  simp only [SameResult, toOption_seq, show x.toOption = y.toOption from h,
    show f.toOption = g.toOption from hfg]

theorem within (h : SameResult x y) (segment segment' : String) :
    SameResult (x.within segment) (y.within segment') := by
  simp only [SameResult, toOption_within, show x.toOption = y.toOption from h]

theorem ensure (h : SameResult x y) (test : α → Option Fault) :
    SameResult (x.ensure test) (y.ensure test) := by
  simp only [SameResult, toOption_ensure, show x.toOption = y.toOption from h]

end SameResult

/-- Lists are read with the same result if their items are, one by one. -/
theorem sameResult_traverse {E : γ → γ → Prop} {read : Nat → γ → Checked α}
    (hread : ∀ i c d, E c d → SameResult (read i c) (read i d)) {l l' : List γ}
    (h : List.Forall₂ E l l') (i : Nat) : SameResult (traverse read i l) (traverse read i l') := by
  induction h generalizing i with
  | nil => rfl
  | cons h _ ih => exact (((hread i _ _ h).within _ _).map _).seq (ih (i + 1))

end Checked

open Checked

namespace Reader

/-- Related values are both accepted with the same result, or both rejected. -/
def Overlooks (read : Reader α) (E : Value → Value → Prop) : Prop :=
  ∀ v w, E v w → SameResult (read v) (read w)

variable {read : Reader α} {E : Value → Value → Prop}

theorem overlooks_eq (read : Reader α) : Overlooks read Eq := by
  rintro v _ rfl
  rfl

theorem Overlooks.or_null (h : Overlooks read E) (hnull : ∀ v w, E v w → (v = .null ↔ w = .null)) :
    Overlooks (nullable read) E := by
  intro v w hvw
  by_cases hv : v = .null
  · rw [hv, (hnull v w hvw).1 hv]
    rfl
  · rw [nullable_of_ne_null read hv, nullable_of_ne_null read (mt (hnull v w hvw).2 hv)]
    exact (h v w hvw).map some

theorem overlooks_nonEmptyList {item : Reader α} (h : Overlooks item E) :
    Overlooks (nonEmptyList item) (Value.InItems E) := by
  rintro _ _ (v | hitems)
  · rfl
  · exact (sameResult_traverse (fun _ => h) hitems 0).ensure _

theorem overlooks_object {record : String} {E : Entries → Entries → Prop}
    {read : Entries → Checked α}
    (h : ∀ entries entries', E entries entries' → SameResult (read entries) (read entries')) :
    Overlooks (Record.object record read) (Value.InObject E) := by
  rintro _ _ (v | hentries)
  · rfl
  · exact h _ _ hentries

end Reader

/-! ### Objects whose keys lead to related values -/

theorem Key.value?_plain (name : String) (entries : Entries) :
    (Key.plain name).value? entries = entries.find? name := by
  rw [value?_eq]
  exact Option.or_self

namespace Record

variable {k : Key} {read : Reader α} {entries : Entries}

theorem toOption_required : (required k read entries).toOption =
    (k.value? entries).bind fun v => (read v).toOption := by
  rw [required, Key.value?]
  cases k.find? entries with
  | none => rfl
  | some found => exact toOption_within _ _

theorem toOption_defaulted {default : α} : (defaulted k default read entries).toOption =
    (k.value? entries).elim (some default) fun v => (read v).toOption := by
  rw [defaulted, Key.value?]
  cases k.find? entries with
  | none => rfl
  | some found => exact toOption_within _ _

end Record

namespace Entries.Known

variable {keys : List Key} {inside : Key → Value → Value → Prop} {entries entries' : Entries}
  {k : Key} {read : Reader α}

theorem keepUnknown (h : Known keys inside entries entries') :
    SameResult (Record.keepUnknown keys entries) (Record.keepUnknown keys entries') :=
  congrArg some h.unknown

section Read

variable (h : Known keys inside entries entries') (hk : k ∈ keys)
  (hread : Reader.Overlooks read (inside k))
include h hk hread

theorem required :
    SameResult (Record.required k read entries) (Record.required k read entries') := by
  have hvalue := h.value? k hk
  rw [SameResult, Record.toOption_required, Record.toOption_required]
  generalize k.value? entries = v at hvalue ⊢
  generalize k.value? entries' = w at hvalue ⊢
  cases hvalue with
  | none => rfl
  | some hvalue => exact hread _ _ hvalue

theorem defaulted {default : α} : SameResult (Record.defaulted k default read entries)
    (Record.defaulted k default read entries') := by
  have hvalue := h.value? k hk
  rw [SameResult, Record.toOption_defaulted, Record.toOption_defaulted]
  generalize k.value? entries = v at hvalue ⊢
  generalize k.value? entries' = w at hvalue ⊢
  cases hvalue with
  | none => rfl
  | some hvalue => exact hread _ _ hvalue

end Read

/-! Keys whose values are the same in both objects. -/

section Equal

variable (h : Known keys inside entries entries') (hk : k ∈ keys) (hinside : inside k = Eq)
include h hk hinside

theorem required_eq :
    SameResult (Record.required k read entries) (Record.required k read entries') :=
  h.required hk (hinside ▸ Reader.overlooks_eq read)

theorem defaulted_eq {default : α} : SameResult (Record.defaulted k default read entries)
    (Record.defaulted k default read entries') :=
  h.defaulted hk (hinside ▸ Reader.overlooks_eq read)

end Equal

theorem find?_eq {name : String} (h : Known keys inside entries entries')
    (hname : Key.plain name ∈ keys) (hinside : inside (.plain name) = Eq) :
    entries.find? name = entries'.find? name := by
  have hvalue := h.value? _ hname
  rw [hinside, Key.value?_plain, Key.value?_plain] at hvalue
  generalize entries.find? name = v at hvalue ⊢
  generalize entries'.find? name = w at hvalue ⊢
  cases hvalue with
  | none => rfl
  | some h => rw [h]

end Entries.Known

/-- A record overlooks other spellings of its keys. -/
theorem Reader.overlooks_record {record : String} {keys : List Key}
    {inside : Key → Value → Value → Prop} {read : Entries → Checked α} (hkeys : Key.Separate keys)
    (hrefl : ∀ k v, inside k v v)
    (h : ∀ entries entries', Entries.Known keys inside entries entries' →
      SameResult (read entries) (read entries')) :
    Overlooks (Record.object record read) (Value.InObject (Entries.Respelled keys inside)) :=
  overlooks_object fun _ _ hentries => h _ _ (hentries.known hkeys hrefl)

/-! ### Rules and contexts -/

theorem FieldRules.overlooks_read :
    Reader.Overlooks read (Value.InObject (Entries.Spelled keys)) := by
  refine Reader.overlooks_record (by decide +kernel) (fun _ _ => rfl) fun entries entries' h => ?_
  refine .seq ?_ h.keepUnknown
  -- the other keys are all optional
  iterate 17 refine .seq ?_ (h.defaulted_eq (by decide) rfl)
  exact .map (h.defaulted_eq (by decide) rfl) _

theorem PromptContext.overlooks_read :
    Reader.Overlooks read (Value.InObject (Entries.Spelled keys)) := by
  refine Reader.overlooks_record (by decide) (fun _ _ => rfl) fun entries entries' h => ?_
  refine .seq ?_ h.keepUnknown
  refine .seq ?_ (h.defaulted_eq (by decide) rfl)
  refine .seq ?_ (h.defaulted_eq (by decide) rfl)
  exact .map (h.required_eq (by decide) rfl) _

theorem VariantContext.overlooks_read :
    Reader.Overlooks read (Value.InObject (Entries.Spelled keys)) := by
  refine Reader.overlooks_record (by decide) (fun _ _ => rfl) fun entries entries' h => ?_
  refine .seq ?_ h.keepUnknown
  refine .seq ?_ (h.defaulted_eq (by decide) rfl)
  exact .map (h.defaulted_eq (by decide) rfl) _

theorem ComponentContext.underKey_refl (k : Key) (v : Value) : underKey k v v := by
  unfold underKey
  split_ifs
  · exact .same v
  · exact .same v
  · rfl

theorem ComponentContext.overlooks_read :
    Reader.Overlooks read (Value.InObject (Entries.Respelled keys underKey)) := by
  refine Reader.overlooks_record (by decide) underKey_refl fun entries entries' h => ?_
  refine .seq ?_ h.keepUnknown
  refine .seq ?_ (h.defaulted (by decide) ?_)
  · refine .map (h.defaulted (by decide) ?_) _
    exact PromptContext.overlooks_read.or_null Value.InObject.null_iff
  · exact VariantContext.overlooks_read.or_null Value.InObject.null_iff

/-! ### Configurations -/

section Configurations

variable {entries entries' : Entries}

theorem TextConfig.sameResult_read (h : Entries.Known keys (fun _ => Eq) entries entries') :
    SameResult (read (.object entries)) (read (.object entries')) := by
  refine .seq ?_ h.keepUnknown
  refine .seq ?_ (h.defaulted_eq (by decide) rfl)
  refine .seq ?_ (h.defaulted_eq (by decide) rfl)
  exact .map (h.defaulted_eq (by decide) rfl) _

theorem BareConfig.sameResult_read {record type : String}
    (h : Entries.Known [typeKey] (fun _ => Eq) entries entries') :
    SameResult (read record type (.object entries)) (read record type (.object entries')) := by
  refine .seq ?_ h.keepUnknown
  exact .map (h.defaulted_eq (by decide) rfl) _

theorem NumberConfig.sameResult_read (h : Entries.Known keys (fun _ => Eq) entries entries') :
    SameResult (read (.object entries)) (read (.object entries')) := by
  refine .seq ?_ h.keepUnknown
  refine .seq ?_ (h.defaulted_eq (by decide) rfl)
  refine .seq ?_ (h.defaulted_eq (by decide) rfl)
  refine .seq ?_ (h.defaulted_eq (by decide) rfl)
  exact .map (h.defaulted_eq (by decide) rfl) _

theorem BooleanConfig.sameResult_read (h : Entries.Known keys (fun _ => Eq) entries entries') :
    SameResult (read (.object entries)) (read (.object entries')) := by
  refine .seq ?_ h.keepUnknown
  refine .seq ?_ (h.defaulted_eq (by decide) rfl)
  exact .map (h.defaulted_eq (by decide) rfl) _

theorem SelectConfig.sameResult_read (h : Entries.Known keys (fun _ => Eq) entries entries') :
    SameResult (read (.object entries)) (read (.object entries')) := by
  refine .seq ?_ h.keepUnknown
  refine .seq ?_ (h.defaulted_eq (by decide) rfl)
  refine .seq ?_ (h.required_eq (by decide) rfl)
  refine .seq ?_ (h.defaulted_eq (by decide) rfl)
  exact .map (h.defaulted_eq (by decide) rfl) _

theorem MediaConfig.sameResult_read (h : Entries.Known keys (fun _ => Eq) entries entries') :
    SameResult (read (.object entries)) (read (.object entries')) := by
  refine .seq ?_ h.keepUnknown
  refine .seq ?_ (h.defaulted_eq (by decide) rfl)
  exact .map (h.defaulted_eq (by decide) rfl) _

theorem RelationConfig.sameResult_read (h : Entries.Known keys (fun _ => Eq) entries entries') :
    SameResult (read (.object entries)) (read (.object entries')) := by
  refine .seq ?_ h.keepUnknown
  refine .seq ?_ (h.defaulted_eq (by decide) rfl)
  refine .seq ?_ (h.defaulted_eq (by decide) rfl)
  refine .seq ?_ (h.required_eq (by decide) rfl)
  refine .seq ?_ (h.required_eq (by decide) rfl)
  exact .map (h.defaulted_eq (by decide) rfl) _

theorem DateConfig.sameResult_read (h : Entries.Known keys (fun _ => Eq) entries entries') :
    SameResult (read (.object entries)) (read (.object entries')) := by
  refine .seq ?_ h.keepUnknown
  refine .seq ?_ (h.defaulted_eq (by decide) rfl)
  refine .seq ?_ (h.defaulted_eq (by decide) rfl)
  exact .map (h.defaulted_eq (by decide) rfl) _

theorem ComponentConfig.sameResult_read
    (h : Entries.Known keys (FieldConfig.underKey .component) entries entries') :
    SameResult (read (.object entries)) (read (.object entries')) := by
  refine .seq ?_ h.keepUnknown
  refine .seq ?_ (h.defaulted (by decide) ?_)
  · refine .seq ?_ (h.defaulted_eq (by decide) rfl)
    refine .seq ?_ (h.required_eq (by decide) rfl)
    exact .map (h.defaulted_eq (by decide) rfl) _
  · exact ComponentContext.overlooks_read.or_null Value.InObject.null_iff

namespace FieldConfig

theorem sameResult_readAs {type : FieldType}
    (h : Entries.Known (keys type) (underKey type) entries entries') :
    SameResult (readAs type (.object entries)) (readAs type (.object entries')) := by
  cases type with
  | text => exact (TextConfig.sameResult_read h).map text
  | rich => exact (BareConfig.sameResult_read h).map rich
  | number => exact (NumberConfig.sameResult_read h).map number
  | boolean => exact (BooleanConfig.sameResult_read h).map boolean
  | date => exact (DateConfig.sameResult_read h).map date
  | select => exact (SelectConfig.sameResult_read h).map select
  | json => exact (BareConfig.sameResult_read h).map json
  | media => exact (MediaConfig.sameResult_read h).map media
  | relation => exact (RelationConfig.sameResult_read h).map relation
  | component => exact (ComponentConfig.sameResult_read h).map component

end FieldConfig

end Configurations

/-! ### Fields -/

namespace Entries

variable {keys : List Key} {entries : Entries} {name other : String} {v : Value}

/-- A name of an object is used if it is the only spelling of a key. -/
theorem any_uses_plain (hname : Key.plain name ∈ keys) (h : entries.has name = true) :
    (keys.any fun k => k.uses entries name) = true := by
  rw [List.any_eq_true]
  exact ⟨_, hname, Key.uses_iff_has.2 ⟨.inl rfl, h, fun hne => absurd rfl hne⟩⟩

/-- Another value for a key with one spelling, or a new one, is not seen under other names. -/
theorem any_uses_insert (hkeys : Key.Separate keys) (hname : Key.plain name ∈ keys)
    (hother : other ≠ name) : (keys.any fun k => k.uses (entries.insert name v) other) =
      keys.any fun k => k.uses entries other := by
  rw [Bool.eq_iff_iff, List.any_eq_true, List.any_eq_true]
  refine exists_congr fun k => and_congr_right fun hk => ?_
  by_cases hspells : k.Spells name
  · -- the key has no other spelling
    obtain rfl := hkeys.eq hk hname hspells (.inl rfl)
    have hnot : ∀ entries, ¬(Key.plain name).uses entries other = true := fun entries h =>
      hother ((Key.uses_iff_has.1 h).1.elim id id)
    exact iff_of_false (hnot _) (hnot _)
  · have hprimary : k.primary ≠ name := fun h => hspells (.inl h.symm)
    have hsecond : k.other ≠ name := fun h => hspells (.inr h.symm)
    rw [Key.uses_iff, Key.uses_iff, Key.find?, Key.find?, find?_insert_of_ne hprimary,
      find?_insert_of_ne hsecond]

/-- Entries are selected from an object as before, if the one that is put in is not selected. -/
theorem filter_insert {p q : String × Value → Bool} (hp : p (name, v) = false)
    (hq : ∀ e ∈ entries, e.1 = name → q e = false)
    (hpq : ∀ e ∈ entries, e.1 ≠ name → p e = q e) :
    (entries.insert name v).filter p = entries.filter q := by
  unfold Entries.insert
  split
  · refine filter_eq_of_forall₂ (List.forall₂_map_left_iff.2 (List.forall₂_same.2 fun e he => ?_))
    by_cases hname : e.1 = name
    · simp [hname, hp, hq e he hname]
    · simp [hname, hpq e he hname]
  · rename_i hhas
    have hne : ∀ e ∈ entries, e.1 ≠ name :=
      fun e he heq => hhas (has_iff_exists.2 ⟨e, he, heq⟩)
    rw [List.filter_append, List.filter_cons_of_neg (by simp [hp]), List.filter_nil,
      List.append_nil]
    exact List.filter_congr fun e he => hpq e he (hne e he)

/-- Another value for a key with one spelling, or a new one, changes no unknown entries. -/
theorem unknown_insert (hkeys : Key.Separate keys) (hname : Key.plain name ∈ keys) :
    (entries.insert name v).unknown keys = entries.unknown keys := by
  have hhas : (entries.insert name v).has name = true := by
    rw [has_iff_find?_isSome, find?_insert_self]
    rfl
  refine filter_insert ?_ (fun e he heq => ?_) fun e _ hne => ?_
  · rw [any_uses_plain hname hhas]
    rfl
  · rw [heq, any_uses_plain hname (has_iff_exists.2 ⟨e, he, heq⟩)]
    rfl
  · rw [any_uses_insert hkeys hname hne]

end Entries

namespace FieldConfig

variable {type : FieldType} {inherited : Option Value} {config config' : Entries}

theorem separate_keys (type : FieldType) : Key.Separate (keys type) := by
  cases type <;> decide

theorem underKey_refl (type : FieldType) (k : Key) (v : Value) : underKey type k v v := by
  cases type with
  | component =>
    simp only [underKey]
    split_ifs
    · exact .same v
    · rfl
  | text | rich | number | boolean | date | select | json | media | relation => rfl

theorem underKey_type (type : FieldType) : underKey type typeKey = Eq := by
  cases type <;> rfl

theorem value?_tagged_of_ne {k : Key} (hk : k ∈ keys type) (hne : k ≠ typeKey) :
    k.value? (tagged inherited config) = k.value? config := by
  have hspells : ¬k.Spells "type" :=
    fun h => hne ((separate_keys type).eq hk (typeKey_mem_keys type) h (.inl rfl))
  rw [Key.value?_eq, Key.value?_eq, find?_tagged_of_ne fun h => hspells (.inl h.symm),
    find?_tagged_of_ne fun h => hspells (.inr h.symm)]

theorem unknown_tagged (type : FieldType) (inherited : Option Value) (config : Entries) :
    (tagged inherited config).unknown (keys type) = config.unknown (keys type) := by
  cases inherited with
  | none => rfl
  | some tag =>
    rw [tagged.eq_1]
    split
    · rfl
    · exact Entries.unknown_insert (separate_keys type) (typeKey_mem_keys type)

/-- Configurations whose keys lead to related values still do with the tag they inherit. -/
theorem known_tagged (h : Entries.Known (keys type) (underKey type) config config') :
    Entries.Known (keys type) (underKey type) (tagged inherited config)
      (tagged inherited config') where
  unknown := by
    rw [unknown_tagged, unknown_tagged, h.unknown]
  value? k hk := by
    by_cases hne : k = typeKey
    · have htype := h.find?_eq (typeKey_mem_keys type) (underKey_type type)
      rw [hne, typeKey, Key.value?_plain, Key.value?_plain, find?_tagged_type, find?_tagged_type,
        htype]
      cases (config'.find? "type").or inherited with
      | none => exact .none
      | some tag => exact .some (underKey_refl type _ tag)
    · rw [value?_tagged_of_ne hk hne, value?_tagged_of_ne hk hne]
      exact h.value? k hk

/-- A respelled configuration has the same tag. -/
theorem Respelled.find?_type (h : Respelled inherited config config') :
    config.find? "type" = config'.find? "type" := by
  rw [Respelled] at h
  split at h
  · rename_i type _
    exact (h.known (separate_keys type) (underKey_refl type)).find?_eq (typeKey_mem_keys type)
      (underKey_type type)
  · exact h

/-- A respelled configuration is read with the same result. -/
theorem Respelled.sameResult_read (h : Respelled inherited config config') :
    SameResult (read (.object (tagged inherited config)))
      (read (.object (tagged inherited config'))) := by
  rw [read_object, read_object, find?_tagged_type, find?_tagged_type, ← h.find?_type]
  rw [Respelled] at h
  generalize (config.find? "type").or inherited = tag at h ⊢
  cases tag with
  | none => rfl
  | some tag =>
    dsimp only
    generalize typeOf? (some tag) = type at h ⊢
    cases type with
    | none => rfl
    | some type =>
      exact (sameResult_readAs (known_tagged
        (h.known (separate_keys type) (underKey_refl type)))).within _ _

end FieldConfig

namespace Field

variable {entries entries' : Entries}

theorem underKey_refl (entries : Entries) (k : Key) (v : Value) : underKey entries k v v := by
  unfold underKey
  split_ifs
  · exact .same v
  · exact .same v
  · rfl

/-- What a reader of the parts of a field may find under its keys: configurations that are read with
the same result, and else what may differ inside a field. -/
def readUnderKey (entries : Entries) : Key → Value → Value → Prop :=
  Function.update (underKey entries) (.plain "config") fun v w =>
    SameResult (FieldConfig.read v) (FieldConfig.read w) ∧ (v = .null ↔ w = .null)

theorem Respelled.known (h : Respelled entries entries') :
    Entries.Known keys (underKey entries) entries entries' :=
  Entries.Respelled.known h (by decide) (underKey_refl entries)

theorem unknown_inheritType (entries : Entries) :
    (inheritType entries).unknown keys = entries.unknown keys := by
  rw [inheritType.eq_def]
  split
  · split
    · rfl
    · exact Entries.unknown_insert (by decide) (by decide)
  · rfl

theorem Respelled.known_inheritType (h : Respelled entries entries') :
    Entries.Known keys (readUnderKey entries) (inheritType entries) (inheritType entries') where
  unknown := by
    rw [unknown_inheritType, unknown_inheritType, h.known.unknown]
  value? k hk := by
    have hplain : ∀ k ∈ keys, k = .plain k.primary := by decide
    have hvalue := h.known.value? k hk
    rw [hplain k hk] at hvalue ⊢
    generalize k.primary = name at hvalue ⊢
    rw [Key.value?_plain, Key.value?_plain] at hvalue ⊢
    by_cases hconfig : name = "config"
    · subst hconfig
      rw [find?_inheritType_config, find?_inheritType_config,
        ← h.known.find?_eq (show Key.plain "type" ∈ keys by decide) rfl, readUnderKey,
        Function.update_self]
      generalize entries.find? "config" = c at hvalue ⊢
      generalize entries'.find? "config" = c' at hvalue ⊢
      cases hvalue with
      | none => exact .none
      | some hinside =>
        refine .some ?_
        cases hinside with
        | same v => exact ⟨rfl, Iff.rfl⟩
        | object h => exact ⟨h.sameResult_read, by simp⟩
    · have hne : Key.plain name ≠ .plain "config" := fun heq => hconfig (congrArg Key.primary heq)
      rw [find?_inheritType hconfig, find?_inheritType hconfig, readUnderKey,
        Function.update_of_ne hne]
      exact hvalue

theorem Respelled.sameResult_readParts (h : Respelled entries entries') :
    SameResult (readParts (inheritType entries)) (readParts (inheritType entries')) := by
  have h := h.known_inheritType
  have hconfig : Reader.Overlooks (Reader.nullable FieldConfig.read)
      (readUnderKey entries (.plain "config")) := by
    rw [readUnderKey, Function.update_self]
    exact Reader.Overlooks.or_null (fun _ _ h => h.1) fun _ _ h => h.2
  refine .seq ?_ h.keepUnknown
  refine .seq ?_ (h.defaulted_eq (by decide) rfl)
  refine .seq ?_ (h.defaulted (by decide) ?_)
  · refine .seq ?_ (h.defaulted_eq (by decide) rfl)
    refine .seq ?_ (h.defaulted_eq (by decide) rfl)
    refine .seq ?_ (h.defaulted (by decide) hconfig)
    refine .seq ?_ (h.required_eq (by decide) rfl)
    refine .seq ?_ (h.required_eq (by decide) rfl)
    exact .map (h.required_eq (by decide) rfl) _
  · exact FieldRules.overlooks_read.or_null Value.InObject.null_iff

theorem overlooks_read : Reader.Overlooks read (Value.InObject Respelled) :=
  Reader.overlooks_object fun _ _ h => h.sameResult_readParts.ensure _

end Field

/-! ### Models and components -/

theorem ModelSettings.overlooks_read :
    Reader.Overlooks read (Value.InObject (Entries.Spelled keys)) := by
  refine Reader.overlooks_record (by decide) (fun _ _ => rfl) fun entries entries' h => ?_
  refine .seq ?_ h.keepUnknown
  refine .seq ?_ (h.defaulted_eq (by decide) rfl)
  exact .map (h.defaulted_eq (by decide) rfl) _

theorem ContentModel.underKey_refl (k : Key) (v : Value) : underKey k v v := by
  unfold underKey
  split_ifs
  · exact .same v
  · exact .same v
  · rfl

theorem Component.underKey_refl (k : Key) (v : Value) : underKey k v v := by
  unfold underKey
  split_ifs
  · exact .same v
  · rfl

theorem ContentModel.overlooks_read :
    Reader.Overlooks read (Value.InObject (Entries.Respelled keys underKey)) := by
  refine Reader.overlooks_record (by decide) underKey_refl fun entries entries' h => ?_
  refine .seq ?_ h.keepUnknown
  refine .seq ?_ (h.defaulted (by decide) ModelSettings.overlooks_read)
  refine .seq ?_ (h.required (by decide) (Reader.overlooks_nonEmptyList Field.overlooks_read))
  refine .seq ?_ (h.required_eq (by decide) rfl)
  exact .map (h.required_eq (by decide) rfl) _

theorem Component.overlooks_read :
    Reader.Overlooks read (Value.InObject (Entries.Respelled keys underKey)) := by
  refine Reader.overlooks_record (by decide) underKey_refl fun entries entries' h => ?_
  refine .seq ?_ h.keepUnknown
  refine .seq ?_ (h.required (by decide) (Reader.overlooks_nonEmptyList Field.overlooks_read))
  refine .seq ?_ (h.required_eq (by decide) rfl)
  exact .map (h.required_eq (by decide) rfl) _

/-! ### Checks -/

theorem Field.Respelled.rawFieldKey?_eq {v w : Value} (h : Value.InObject Field.Respelled v w) :
    rawFieldKey? v = rawFieldKey? w := by
  cases h with
  | same v => rfl
  | object h =>
    have hkey := h.known.find?_eq (show Key.plain "key" ∈ Field.keys by decide) rfl
    exact congrArg (·.bind Value.asText?) hkey

section Check

variable {kind : DefinitionKind} {keys : List Key} {inside : Key → Value → Value → Prop}
  {read : Reader α}

/-- Respelled definitions have the same fields, as far as their keys go. -/
theorem Entries.Known.fieldListIssues_eq {entries entries' : Entries}
    (h : Known keys inside entries entries') (hfields : Key.plain "fields" ∈ keys)
    (hinside : inside (.plain "fields") = Value.InItems (Value.InObject Field.Respelled)) :
    fieldListIssues kind entries = fieldListIssues kind entries' := by
  have hvalue := h.value? _ hfields
  rw [hinside, Key.value?_plain, Key.value?_plain] at hvalue
  rw [fieldListIssues, fieldListIssues]
  generalize entries.find? "fields" = v at hvalue ⊢
  generalize entries'.find? "fields" = w at hvalue ⊢
  cases hvalue with
  | none => rfl
  | some hitems =>
    cases hitems with
    | same v => rfl
    | list h => exact keyIssuesFrom_congr (h.imp fun _ _ => Field.Respelled.rawFieldKey?_eq) 0 []

theorem overlooks_checkDefinition (hkeys : Key.Separate keys) (hrefl : ∀ k v, inside k v v)
    (hread : Reader.Overlooks read (Value.InObject (Entries.Respelled keys inside)))
    (hfields : Key.plain "fields" ∈ keys)
    (hinside : inside (.plain "fields") = Value.InItems (Value.InObject Field.Respelled)) :
    Reader.Overlooks (checkDefinition kind read)
      (Value.InObject (Entries.Respelled keys inside)) := by
  rintro _ _ (v | @⟨entries, entries', h⟩)
  · rfl
  · rw [checkDefinition, checkDefinition,
      (h.known hkeys hrefl).fieldListIssues_eq hfields hinside]
    exact .seq ((hread _ _ (.object h)).map _) rfl

end Check

theorem ContentModel.overlooks_check :
    Reader.Overlooks check (DefinitionKind.Respelled .model) :=
  overlooks_checkDefinition (by decide) underKey_refl overlooks_read (by decide) rfl

theorem Component.overlooks_check :
    Reader.Overlooks check (DefinitionKind.Respelled .component) :=
  overlooks_checkDefinition (by decide) underKey_refl overlooks_read (by decide) rfl

/-! ### Validation -/

section Outcomes

variable {ε : Type}

theorem toOption_mapError {δ : Type} (f : ε → δ) (x : Except ε α) :
    (x.mapError f).toOption = x.toOption := by
  cases x <;> rfl

theorem toOption_bind (x : Except ε α) (next : α → Except ε β) :
    (x >>= next).toOption = x.toOption.bind fun a => (next a).toOption := by
  cases x <;> rfl

/-- Two lists are mapped with the same result if their items are, one by one. -/
theorem toOption_mapM_eq {f g : α → Except ε β} {l l' : List α}
    (h : List.Forall₂ (fun a b => (f a).toOption = (g b).toOption) l l') :
    (l.mapM f).toOption = (l'.mapM g).toOption := by
  induction h with
  | nil => rfl
  | cons h _ ih =>
    simp only [List.mapM_cons, toOption_bind, h, ih]

end Outcomes

theorem toOption_validateWith (kind : DefinitionKind) (check : Reader α) (raw : Value) :
    (validateWith kind check raw).toOption = (check raw).toOption := by
  rw [validateWith]
  cases check raw <;> rfl

/-- Raw definitions in other spellings, one by one. -/
structure RawDefinitions.Respelled (raw raw' : RawDefinitions) : Prop where
  /-- The models are in other spellings. -/
  models : List.Forall₂ (DefinitionKind.Respelled .model) raw.models raw'.models
  /-- The components are in other spellings. -/
  components : List.Forall₂ (DefinitionKind.Respelled .component) raw.components raw'.components

namespace DefinitionKind

variable {raw raw' : Value}

theorem Respelled.toOption_validate_model (h : Respelled .model raw raw') :
    (ContentModel.validate raw).toOption = (ContentModel.validate raw').toOption := by
  rw [ContentModel.validate, ContentModel.validate, toOption_validateWith, toOption_validateWith]
  exact ContentModel.overlooks_check raw raw' h

theorem Respelled.toOption_validate_component (h : Respelled .component raw raw') :
    (Component.validate raw).toOption = (Component.validate raw').toOption := by
  rw [Component.validate, Component.validate, toOption_validateWith, toOption_validateWith]
  exact Component.overlooks_check raw raw' h

end DefinitionKind

/-- Respelled definitions are valid with the same models and components, or none of both are. -/
theorem RawDefinitions.Respelled.toOption_validate {raw raw' : RawDefinitions}
    (h : raw.Respelled raw') :
    (raw.validate.toOption.map fun d => (d.models, d.components)) =
      raw'.validate.toOption.map fun d => (d.models, d.components) := by
  have hmodels : (raw.models.mapM validModel).toOption = (raw'.models.mapM validModel).toOption :=
    toOption_mapM_eq (h.models.imp fun v w hvw => by
      rw [validModel, validModel, toOption_mapError, toOption_mapError,
        hvw.toOption_validate_model])
  have hcomponents : (raw.components.mapM validComponent).toOption =
      (raw'.components.mapM validComponent).toOption :=
    toOption_mapM_eq (h.components.imp fun v w hvw => by
      rw [validComponent, validComponent, toOption_mapError, toOption_mapError,
        hvw.toOption_validate_component])
  rw [validate, validate, toOption_bind, toOption_bind, hmodels, Option.map_bind, Option.map_bind]
  refine congrArg _ (funext fun models => ?_)
  simp only [Function.comp, toOption_bind, hcomponents, Option.map_bind]
  rfl

/-- Key spelling does not matter: a raw definition in other spellings, in any of its objects, is
accepted as the same definition or rejected as well, and what is compiled from respelled definitions
is the same. -/
theorem validate_eq_of_respelled :
    (∀ raw raw', DefinitionKind.Respelled .model raw raw' →
        (ContentModel.validate raw).toOption = (ContentModel.validate raw').toOption) ∧
      (∀ raw raw', DefinitionKind.Respelled .component raw raw' →
        (Component.validate raw).toOption = (Component.validate raw').toOption) ∧
      ∀ raw raw' : RawDefinitions, raw.Respelled raw' → ∀ settings,
        (raw.validate.toOption.map fun d => compileModels d.models d.components settings) =
          raw'.validate.toOption.map fun d => compileModels d.models d.components settings := by
  refine ⟨fun _ _ h => h.toOption_validate_model, fun _ _ h => h.toOption_validate_component,
    fun raw raw' h settings => ?_⟩
  have hcompile := congrArg
    (Option.map fun d : List ContentModel × Components => compileModels d.1 d.2 settings)
    h.toOption_validate
  rw [Option.map_map, Option.map_map] at hcompile
  exact hcompile

/-! ### An essay in two spellings -/

/-- An essay with its author, a drafted summary and a title, whose keys are in the spellings that
are chosen. -/
def rawEssay (spelling : Key → String) : Value := .object [
  ("slug", .text "essay"), ("name", .text "Essay"),
  ("fields", .list [
    .object [("key", .text "author"), ("label", .text "Author"), ("type", .text "relation"),
      ("config", .object [
        (spelling ⟨"relationType", "relation_type"⟩, .text "manyToOne"),
        ("note", .text "to be discussed"),
        (spelling ⟨"targetModel", "target_model"⟩, .text "person")])],
    .object [("key", .text "summary"), ("label", .text "Summary"), ("type", .text "component"),
      ("config", .object [
        ("slug", .text "teaser"),
        ("context", .object [
          (spelling ⟨"aiPrompt", "ai_prompt"⟩, .object [
            ("template", .text "Sum up"),
            (spelling ⟨"autoGenerate", "auto_generate"⟩, .bool true)])])])],
    .object [("key", .text "title"), ("label", .text "Title"), ("type", .text "text"),
      ("validation", .object [
        (spelling ⟨"maxLength", "max_length"⟩, .int 80),
        (spelling ⟨"int", "integer"⟩, .bool false)])]]),
  ("settings", .object [(spelling ⟨"sortField", "sort_field"⟩, .text "title")])]

/-- A key in its first spelling may be written in its second one. -/
theorem Entries.Turned.second {keys : List Key} {inside : Key → Value → Value → Prop}
    {entries entries' : Entries} {v w : Value} (k : Key) (hk : k ∈ keys)
    (habsent : entries.has k.other = false) (habsent' : entries'.has k.primary = false)
    (hvalue : inside k v w) : Turned keys inside entries entries' (k.primary, v) (k.other, w) :=
  .spelling hk (.inl rfl) (.inr rfl) habsent habsent' hvalue

/-- The second spellings of an essay's keys may stand for the first ones. -/
theorem respelled_rawEssay :
    DefinitionKind.Respelled .model (rawEssay Key.primary) (rawEssay Key.other) := by
  refine Value.InObject.object (.cons (.same _) (.cons (.same _) (.cons ?fields
    (.cons ?settings .nil))))
  case settings =>
    refine .value (k := .plain "settings") (by decide) (by decide) (Value.InObject.object ?_)
    exact .cons (.second _ (by decide) (by decide) (by decide) rfl) .nil
  case fields =>
    refine .value (k := .plain "fields") (by decide) (by decide) (Value.InItems.list
      (.cons (.object ?author) (.cons (.object ?summary) (.cons (.object ?title) .nil))))
    case author =>
      refine .cons (.same _) (.cons (.same _) (.cons (.same _) (.cons ?_ .nil)))
      refine .value (k := .plain "config") (by decide) (by decide) (Value.InObject.object ?_)
      exact .cons (.second _ (by decide) (by decide) (by decide) rfl) (.cons (.same _)
        (.cons (.second _ (by decide) (by decide) (by decide) rfl) .nil))
    case summary =>
      refine .cons (.same _) (.cons (.same _) (.cons (.same _) (.cons ?_ .nil)))
      refine .value (k := .plain "config") (by decide) (by decide) (Value.InObject.object ?_)
      refine .cons (.same _) (.cons ?_ .nil)
      refine .value (k := .plain "context") (by decide) (by decide) (Value.InObject.object ?_)
      refine .cons (.second _ (by decide) (by decide) (by decide) (Value.InObject.object ?_)) .nil
      exact .cons (.same _) (.cons (.second _ (by decide) (by decide) (by decide) rfl) .nil)
    case title =>
      refine .cons (.same _) (.cons (.same _) (.cons (.same _) (.cons ?_ .nil)))
      refine .value (k := .plain "validation") (by decide) (by decide) (Value.InObject.object ?_)
      exact .cons (.second _ (by decide) (by decide) (by decide) rfl)
        (.cons (.second _ (by decide) (by decide) (by decide) rfl) .nil)

/-- The essay is a valid model, and in the other spelling it is the same model. -/
theorem validate_rawEssay :
    ∃ m, (ContentModel.validate (rawEssay Key.primary)).toOption = some m ∧
      (ContentModel.validate (rawEssay Key.other)).toOption = some m ∧
      m.fieldKeys = ["author", "summary", "title"] := by
  obtain ⟨hmodel, -, -⟩ := validate_eq_of_respelled
  have hsame := hmodel _ _ respelled_rawEssay
  obtain ⟨m, hm, hkeys⟩ : ∃ m, (ContentModel.validate (rawEssay Key.primary)).toOption = some m ∧
      m.fieldKeys = ["author", "summary", "title"] := ⟨_, rfl, rfl⟩
  exact ⟨m, hm, hsame ▸ hm, hkeys⟩

end ContentSchema
