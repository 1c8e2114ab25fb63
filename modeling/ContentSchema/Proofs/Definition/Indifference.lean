import ContentSchema.Proofs.Definition.Extension
import ContentSchema.Proofs.Definition.Known

/-!
# Readings do not see more entries

An extension of a raw definition is read as the same definition but for entries that are not known,
or is rejected for the same issues (`DefinitionKind.Extended.definitionIssues_eq`).  Each reader of
a record looks up its keys one by one, so that the readings of two objects are compared key by key.
-/

namespace ContentSchema

open Checked

/-- A record reads objects alike that agree on its keys. -/
theorem Reader.respects_record {α β : Type} {f : α → β} {record : String} {keys : List Key}
    {inside : String → Value → Value → Prop} {read : Entries → Checked α}
    (h : ∀ entries entries', Entries.Agree keys inside entries entries' →
      Alike (Same f) (read entries) (read entries')) :
    Respects (Record.object record read) (Value.InObject (Entries.Extended keys inside)) (Same f) :=
  respects_object (fun _ => rfl) fun _ _ hentries => h _ _ hentries.agree

/-! ### Rules and contexts -/

theorem FieldRules.alike_read :
    Reader.Respects read (Value.InObject (Entries.Padded keys)) (Same known) := by
  refine Reader.respects_record fun entries entries' h => ?_
  refine .seq ?_ (Record.alike_keepUnknown keys entries entries')
  -- the other keys are all optional and read alike
  iterate 17 refine .seq ?_ (h.defaulted_eq (by decide) rfl rfl)
  refine .map ?_ (h.defaulted_eq (by decide) rfl rfl)
  intros
  subst_vars
  rfl

theorem PromptContext.alike_read :
    Reader.Respects read (Value.InObject (Entries.Padded keys)) (Same known) := by
  refine Reader.respects_record fun entries entries' h => ?_
  refine .seq ?_ (Record.alike_keepUnknown keys entries entries')
  refine .seq ?_ (h.defaulted_eq (by decide) rfl rfl)
  refine .seq ?_ (h.defaulted_eq (by decide) rfl rfl)
  refine .map ?_ (h.required_eq (by decide) rfl rfl)
  intros
  subst_vars
  rfl

theorem VariantContext.alike_read :
    Reader.Respects read (Value.InObject (Entries.Padded keys)) (Same known) := by
  refine Reader.respects_record fun entries entries' h => ?_
  refine .seq ?_ (Record.alike_keepUnknown keys entries entries')
  refine .seq ?_ (h.defaulted_eq (by decide) rfl rfl)
  refine .map ?_ (h.defaulted_eq (by decide) rfl rfl)
  intros
  subst_vars
  rfl

theorem ComponentContext.alike_read :
    Reader.Respects read (Value.InObject (Entries.Extended keys inside)) (Same known) := by
  refine Reader.respects_record fun entries entries' h => ?_
  have hprompt := PromptContext.alike_read.or_null Value.InObject.null_iff
  have hvariants := VariantContext.alike_read.or_null Value.InObject.null_iff
  refine .seq ?_ (Record.alike_keepUnknown keys entries entries')
  refine .seq ?_ (h.defaulted (by decide) hvariants hvariants)
  refine .map ?_ (h.defaulted (by decide) hprompt hprompt)
  rintro p p' hp v v' hv _ _ -
  simp only [Same, known, hp, hv]

/-! ### Configurations -/

section Configurations

variable {entries entries' : Entries}

theorem TextConfig.alike_read (h : Entries.Agree keys (fun _ => Eq) entries entries') :
    Alike (Same fun c => { c with extras := [] }) (read (.object entries))
      (read (.object entries')) := by
  refine .seq ?_ (Record.alike_keepUnknown keys entries entries')
  refine .seq ?_ (h.defaulted_eq (by decide) rfl rfl)
  refine .seq ?_ (h.defaulted_eq (by decide) rfl rfl)
  refine .map ?_ (h.defaulted_eq (by decide) rfl rfl)
  intros
  subst_vars
  rfl

theorem BareConfig.alike_read {record type : String}
    (h : Entries.Agree [typeKey] (fun _ => Eq) entries entries') :
    Alike (fun _ _ => True) (read record type (.object entries))
      (read record type (.object entries')) := by
  refine .seq ?_ (Record.alike_keepUnknown [typeKey] entries entries')
  refine .map ?_ (h.defaulted_eq (by decide) rfl rfl)
  intros
  trivial

theorem NumberConfig.alike_read (h : Entries.Agree keys (fun _ => Eq) entries entries') :
    Alike (Same fun c => { c with extras := [] }) (read (.object entries))
      (read (.object entries')) := by
  refine .seq ?_ (Record.alike_keepUnknown keys entries entries')
  refine .seq ?_ (h.defaulted_eq (by decide) rfl rfl)
  refine .seq ?_ (h.defaulted_eq (by decide) rfl rfl)
  refine .seq ?_ (h.defaulted_eq (by decide) rfl rfl)
  refine .map ?_ (h.defaulted_eq (by decide) rfl rfl)
  intros
  subst_vars
  rfl

theorem BooleanConfig.alike_read (h : Entries.Agree keys (fun _ => Eq) entries entries') :
    Alike (Same fun c => { c with extras := [] }) (read (.object entries))
      (read (.object entries')) := by
  refine .seq ?_ (Record.alike_keepUnknown keys entries entries')
  refine .seq ?_ (h.defaulted_eq (by decide) rfl rfl)
  refine .map ?_ (h.defaulted_eq (by decide) rfl rfl)
  intros
  subst_vars
  rfl

theorem MediaConfig.alike_read (h : Entries.Agree keys (fun _ => Eq) entries entries') :
    Alike (Same fun c => { c with extras := [] }) (read (.object entries))
      (read (.object entries')) := by
  refine .seq ?_ (Record.alike_keepUnknown keys entries entries')
  refine .seq ?_ (h.defaulted_eq (by decide) rfl rfl)
  refine .map ?_ (h.defaulted_eq (by decide) rfl rfl)
  intros
  subst_vars
  rfl

theorem RelationConfig.alike_read (h : Entries.Agree keys (fun _ => Eq) entries entries') :
    Alike (Same fun c => { c with extras := [] }) (read (.object entries))
      (read (.object entries')) := by
  refine .seq ?_ (Record.alike_keepUnknown keys entries entries')
  refine .seq ?_ (h.defaulted_eq (by decide) rfl rfl)
  refine .seq ?_ (h.defaulted_eq (by decide) rfl rfl)
  refine .seq ?_ (h.required_eq (by decide) rfl rfl)
  refine .seq ?_ (h.required_eq (by decide) rfl rfl)
  refine .map ?_ (h.defaulted_eq (by decide) rfl rfl)
  intros
  subst_vars
  rfl

theorem DateConfig.alike_read (h : Entries.Agree keys (fun _ => Eq) entries entries') :
    Alike (Same fun c => { c with extras := [] }) (read (.object entries))
      (read (.object entries')) := by
  refine .seq ?_ (Record.alike_keepUnknown keys entries entries')
  refine .seq ?_ (h.defaulted_eq (by decide) rfl rfl)
  refine .seq ?_ (h.defaulted_eq (by decide) rfl rfl)
  refine .map ?_ (h.defaulted_eq (by decide) rfl rfl)
  intros
  subst_vars
  rfl

theorem SelectOption.alike_read :
    Reader.Respects read (Value.InObject (Entries.Padded keys)) (Same known) := by
  refine .either ?_ (Reader.respects_record fun entries entries' h => ?_)
  · -- no object is a choice that is its own label
    rintro _ _ (v | _)
    · exact alike_same_iff.2 rfl
    · exact .rejected _
  · refine .seq ?_ (Record.alike_keepUnknown keys entries entries')
    refine .seq ?_ (h.required_eq (by decide) rfl rfl)
    refine .map ?_ (h.required_eq (by decide) rfl rfl)
    intros
    subst_vars
    rfl

theorem SelectConfig.alike_read
    (h : Entries.Agree keys (FieldConfig.inside .select) entries entries') :
    Alike (Same fun c => { c with options := c.options.map SelectOption.known, extras := [] })
      (read (.object entries)) (read (.object entries')) := by
  have hoptions := Reader.respects_nonEmptyList SelectOption.alike_read
  refine .seq ?_ (Record.alike_keepUnknown keys entries entries')
  refine .seq ?_ (h.defaulted_eq (by decide) rfl rfl)
  refine .seq ?_ (h.required (by decide) hoptions hoptions)
  refine .seq ?_ (h.defaulted_eq (by decide) rfl rfl)
  refine .map ?_ (h.defaulted_eq (by decide) rfl rfl)
  rintro _ _ - _ _ rfl o o' ho _ _ rfl _ _ -
  simp only [Same, ho]

theorem ComponentConfig.alike_read
    (h : Entries.Agree keys (FieldConfig.inside .component) entries entries') :
    Alike (Same fun c => { c with context := c.context.map ComponentContext.known, extras := [] })
      (read (.object entries)) (read (.object entries')) := by
  have hcontext := ComponentContext.alike_read.or_null Value.InObject.null_iff
  refine .seq ?_ (Record.alike_keepUnknown keys entries entries')
  refine .seq ?_ (h.defaulted (by decide) hcontext hcontext)
  refine .seq ?_ (h.defaulted_eq (by decide) rfl rfl)
  refine .seq ?_ (h.required_eq (by decide) rfl rfl)
  refine .map ?_ (h.defaulted_eq (by decide) rfl rfl)
  rintro _ _ - _ _ rfl _ _ rfl o o' ho _ _ -
  simp only [Same, ho]

namespace FieldConfig

theorem alike_readAs {type : FieldType} (h : Entries.Agree (keys type) (inside type) entries entries') :
    Alike (Same known) (readAs type (.object entries)) (readAs type (.object entries')) := by
  cases type with
  | text => exact (TextConfig.alike_read h).map fun _ _ => congrArg text
  | rich => exact (BareConfig.alike_read h).map fun _ _ _ => rfl
  | number => exact (NumberConfig.alike_read h).map fun _ _ => congrArg number
  | boolean => exact (BooleanConfig.alike_read h).map fun _ _ => congrArg boolean
  | date => exact (DateConfig.alike_read h).map fun _ _ => congrArg date
  | select => exact (SelectConfig.alike_read h).map fun _ _ => congrArg select
  | json => exact (BareConfig.alike_read h).map fun _ _ _ => rfl
  | media => exact (MediaConfig.alike_read h).map fun _ _ => congrArg media
  | relation => exact (RelationConfig.alike_read h).map fun _ _ => congrArg relation
  | component => exact (ComponentConfig.alike_read h).map fun _ _ => congrArg component

end FieldConfig

end Configurations

/-! ### Fields -/

namespace FieldConfig

/-- A configuration with the tag it inherits, if it has none of its own. -/
def tagged (inherited : Option Value) (config : Entries) : Entries :=
  match inherited with
  | some tag => if config.has "type" then config else config.insert "type" tag
  | none => config

variable {inherited : Option Value} {config config' : Entries}

theorem find?_tagged_type :
    (tagged inherited config).find? "type" = (config.find? "type").or inherited := by
  cases inherited with
  | none => rw [tagged.eq_2, Option.or_none]
  | some tag =>
    rw [tagged.eq_1]
    cases hfind : config.find? "type" with
    | some own =>
      rw [if_pos (Entries.has_iff_find?_isSome.2 (by rw [hfind]; rfl)), hfind]
      rfl
    | none =>
      rw [if_neg (by rw [Entries.has_iff_find?_isSome, hfind]; simp), Entries.find?_insert_self]
      rfl

theorem find?_tagged_of_ne {name : String} (hname : name ≠ "type") :
    (tagged inherited config).find? name = config.find? name := by
  cases inherited with
  | none => rfl
  | some tag =>
    rw [tagged.eq_1]
    split
    · rfl
    · exact Entries.find?_insert_of_ne hname

/-- Configurations that agree still do with the tag they inherit. -/
theorem agree_tagged {keys : List Key} {inside : String → Value → Value → Prop}
    (h : Entries.Agree keys inside config config') (htype : typeKey ∈ keys)
    (hinside : inside "type" = Eq) :
    Entries.Agree keys inside (tagged inherited config) (tagged inherited config') := by
  intro k hk name hname
  by_cases hne : name = "type"
  · rw [hne, find?_tagged_type, find?_tagged_type, ← h.find?_eq "type" htype hinside, hinside]
    cases (config.find? "type").or inherited with
    | none => exact .none
    | some tag => exact .some rfl
  · rw [find?_tagged_of_ne hne, find?_tagged_of_ne hne]
    exact h k hk name hname

/-- The tag decides how a configuration is read. -/
theorem read_object : read (.object config) =
    match config.find? "type" with
    | none => .fail .untagged
    | some tag =>
      match typeOf? (some tag) with
      | some type => (readAs type (.object config)).within type.name
      | none => .fail (.unknownTag tag.display (tags.map FieldType.name)) := by
  rw [read]
  rfl

theorem typeKey_mem_keys (type : FieldType) : typeKey ∈ keys type := by
  cases type <;> decide

theorem inside_type (type : FieldType) : inside type "type" = Eq := by
  cases type <;> rfl

/-- A configuration with more entries has the same tag. -/
theorem Extended.find?_type (h : Extended inherited config config') :
    config.find? "type" = config'.find? "type" := by
  rw [Extended] at h
  split at h
  · exact h.agree.find?_eq "type" (typeKey_mem_keys _) (inside_type _)
  · exact h.agree.find?_eq "type" (List.mem_singleton_self _) rfl

/-- A configuration with more entries is read alike. -/
theorem Extended.alike_read (h : Extended inherited config config') :
    Alike (Same known) (read (.object (tagged inherited config)))
      (read (.object (tagged inherited config'))) := by
  rw [read_object, read_object, find?_tagged_type, find?_tagged_type, ← h.find?_type]
  rw [Extended] at h
  generalize (config.find? "type").or inherited = tag at h ⊢
  cases tag with
  | none => exact .rejected _
  | some tag =>
    dsimp only
    generalize typeOf? (some tag) = type at h ⊢
    cases type with
    | none => exact .rejected _
    | some type =>
      exact (alike_readAs (agree_tagged h.agree (typeKey_mem_keys type) (inside_type type))).within _

end FieldConfig

namespace Field

/-- A field's configuration takes the type of the field as its tag. -/
theorem find?_inheritType_config (entries : Entries) :
    (inheritType entries).find? "config" = (entries.find? "config").map fun
      | .object config => .object (FieldConfig.tagged (entries.find? "type") config)
      | v => v := by
  rw [inheritType.eq_def]
  split
  · rename_i config type hconfig htype
    rw [hconfig, htype]
    show _ = some (Value.object (FieldConfig.tagged (some type) config))
    rw [FieldConfig.tagged.eq_1]
    split
    · exact hconfig
    · exact Entries.find?_insert_self
  · rename_i hother
    cases hconfig : entries.find? "config" with
    | none => rfl
    | some v =>
      rw [Option.map_some]
      split
      · cases htype : entries.find? "type" with
        | none => rfl
        | some type => exact absurd htype (hother _ type hconfig)
      · rfl

/-- What a reader of the parts of a field may find under its keys: configurations that are read
alike, and else what may differ inside a field. -/
def readInside (entries : Entries) : String → Value → Value → Prop :=
  Function.update (inside entries) "config" fun v w =>
    Alike (Same FieldConfig.known) (FieldConfig.read v) (FieldConfig.read w) ∧
      (v = .null ↔ w = .null)

variable {entries entries' : Entries}

theorem Extended.agree_inheritType (h : Extended entries entries') :
    Entries.Agree keys (readInside entries) (inheritType entries) (inheritType entries') := by
  intro k hk name hname
  have hrel := h.agree k hk name hname
  by_cases hconfig : name = "config"
  · subst hconfig
    rw [find?_inheritType_config, find?_inheritType_config,
      ← h.agree.find?_eq "type" (by decide) rfl]
    rw [readInside, Function.update_self]
    generalize entries.find? "config" = c at hrel ⊢
    generalize entries'.find? "config" = c' at hrel ⊢
    cases hrel with
    | none => exact .none
    | some hinside =>
      refine .some ?_
      cases hinside with
      | same v => exact ⟨alike_same_iff.2 rfl, Iff.rfl⟩
      | object h => exact ⟨h.alike_read, by simp⟩
  · rw [find?_inheritType hconfig, find?_inheritType hconfig, readInside,
      Function.update_of_ne hconfig]
    exact hrel

theorem Extended.alike_readParts (h : Extended entries entries') :
    Alike (Same known) (readParts (inheritType entries)) (readParts (inheritType entries')) := by
  have h := h.agree_inheritType
  have hconfig : Reader.Respects (Reader.nullable FieldConfig.read) (readInside entries "config")
      (Same (Option.map FieldConfig.known)) := by
    rw [readInside, Function.update_self]
    exact Reader.Respects.or_null (fun _ _ h => h.1) fun _ _ h => h.2
  have hrules := FieldRules.alike_read.or_null Value.InObject.null_iff
  refine .seq ?_ (Record.alike_keepUnknown keys _ _)
  refine .seq ?_ (h.defaulted_eq (by decide) rfl rfl)
  refine .seq ?_ (h.defaulted (by decide) hrules hrules)
  refine .seq ?_ (h.defaulted_eq (by decide) rfl rfl)
  refine .seq ?_ (h.defaulted_eq (by decide) rfl rfl)
  refine .seq ?_ (h.defaulted (by decide) hconfig hconfig)
  refine .seq ?_ (h.required_eq (by decide) rfl rfl)
  refine .seq ?_ (h.required_eq (by decide) rfl rfl)
  refine .map ?_ (h.required_eq (by decide) rfl rfl)
  rintro _ _ rfl _ _ rfl _ _ rfl c c' hc _ _ rfl _ _ rfl r r' hr _ _ rfl _ _ -
  simp only [Same, known, hc, hr]

theorem alike_read : Reader.Respects read (Value.InObject Extended) (Same known) := by
  refine Reader.respects_object (fun _ => rfl) fun entries entries' h => ?_
  refine h.alike_readParts.ensure fun f g hfg => ?_
  rw [← configFault_known, hfg, configFault_known]

end Field

/-! ### Models and components -/

theorem ModelSettings.alike_read :
    Reader.Respects read (Value.InObject (Entries.Padded keys)) (Same known) := by
  refine Reader.respects_record fun entries entries' h => ?_
  refine .seq ?_ (Record.alike_keepUnknown keys entries entries')
  refine .seq ?_ (h.defaulted_eq (by decide) rfl rfl)
  refine .map ?_ (h.defaulted_eq (by decide) rfl rfl)
  intros
  subst_vars
  rfl

theorem ContentModel.alike_read :
    Reader.Respects read (Value.InObject (Entries.Extended keys inside)) (Same known) := by
  refine Reader.respects_record fun entries entries' h => ?_
  have hfields := Reader.respects_nonEmptyList Field.alike_read
  refine .seq ?_ (Record.alike_keepUnknown keys entries entries')
  refine .seq ?_ (h.defaulted (by decide) ModelSettings.alike_read ModelSettings.alike_read)
  refine .seq ?_ (h.required (by decide) hfields hfields)
  refine .seq ?_ (h.required_eq (by decide) rfl rfl)
  refine .map ?_ (h.required_eq (by decide) rfl rfl)
  rintro _ _ rfl _ _ rfl f f' hf s s' hs _ _ -
  simp only [Same, known, hs]
  rw [hf]

theorem Component.alike_read :
    Reader.Respects read (Value.InObject (Entries.Extended keys inside)) (Same known) := by
  refine Reader.respects_record fun entries entries' h => ?_
  have hfields := Reader.respects_nonEmptyList Field.alike_read
  refine .seq ?_ (Record.alike_keepUnknown keys entries entries')
  refine .seq ?_ (h.required (by decide) hfields hfields)
  refine .seq ?_ (h.required_eq (by decide) rfl rfl)
  refine .map ?_ (h.required_eq (by decide) rfl rfl)
  rintro _ _ rfl _ _ rfl f f' hf _ _ -
  simp only [Same, known]
  rw [hf]

/-! ### Checks -/

theorem Field.Extended.rawFieldKey?_eq {v w : Value} (h : Value.InObject Field.Extended v w) :
    rawFieldKey? v = rawFieldKey? w := by
  cases h with
  | same v => rfl
  | object h => exact congrArg (·.bind Value.asText?) (h.agree.find?_eq "key" (by decide) rfl)

theorem keyIssuesFrom_congr {kind : DefinitionKind} {raws raws' : List Value}
    (h : List.Forall₂ (fun v w => rawFieldKey? v = rawFieldKey? w) raws raws') (i : Nat)
    (seen : List (String × Nat)) :
    keyIssuesFrom kind i seen raws = keyIssuesFrom kind i seen raws' := by
  induction h generalizing i seen with
  | nil => rfl
  | cons hkey _ ih =>
    rw [keyIssuesFrom, keyIssuesFrom, hkey]
    split
    · exact ih _ _
    · exact congrArg _ (ih _ _)

section Check

variable {α β : Type} {kind : DefinitionKind} {keys : List Key}
  {inside : String → Value → Value → Prop} {read : Reader α} {f : α → β}

/-- Definitions with more entries have the same fields, as far as their keys go. -/
theorem fieldListIssues_eq {entries entries' : Entries} (h : Entries.Agree keys inside entries entries')
    (hfields : Key.plain "fields" ∈ keys)
    (hinside : inside "fields" = Value.InItems (Value.InObject Field.Extended)) :
    fieldListIssues kind entries = fieldListIssues kind entries' := by
  have hrel := h _ hfields "fields" (Or.inl rfl)
  rw [hinside] at hrel
  rw [fieldListIssues, fieldListIssues]
  generalize entries.find? "fields" = v at hrel ⊢
  generalize entries'.find? "fields" = w at hrel ⊢
  cases hrel with
  | none => rfl
  | some hitems =>
    cases hitems with
    | same v => rfl
    | list h => exact keyIssuesFrom_congr (h.imp fun _ _ => Field.Extended.rawFieldKey?_eq) 0 []

theorem alike_checkDefinition
    (hread : Reader.Respects read (Value.InObject (Entries.Extended keys inside)) (Same f))
    (hfields : Key.plain "fields" ∈ keys)
    (hinside : inside "fields" = Value.InItems (Value.InObject Field.Extended)) :
    Reader.Respects (checkDefinition kind read) (Value.InObject (Entries.Extended keys inside))
      (Same f) := by
  rintro _ _ (v | @⟨entries, entries', h⟩)
  · exact alike_same_iff.2 rfl
  · rw [checkDefinition, checkDefinition, fieldListIssues_eq h.agree hfields hinside]
    exact .seq ((hread _ _ (.object h)).map fun _ _ hab _ _ _ => hab) (.refl (fun _ => rfl) _)

theorem rawSlug?_eq (hslug : Key.plain "slug" ∈ keys) (hinside : inside "slug" = Eq) {v w : Value}
    (h : Value.InObject (Entries.Extended keys inside) v w) : rawSlug? v = rawSlug? w := by
  cases h with
  | same v => rfl
  | object h => exact congrArg (·.bind Value.asText?) (h.agree.find?_eq "slug" hslug hinside)

end Check

namespace DefinitionKind

variable {kind : DefinitionKind} {raw raw' : Value}

theorem Extended.check_model (h : Extended .model raw raw') :
    ContentModel.known <$> ContentModel.check raw = ContentModel.known <$> ContentModel.check raw' :=
  alike_same_iff.1 (alike_checkDefinition ContentModel.alike_read (by decide) rfl raw raw' h)

theorem Extended.check_component (h : Extended .component raw raw') :
    Component.known <$> Component.check raw = Component.known <$> Component.check raw' :=
  alike_same_iff.1 (alike_checkDefinition Component.alike_read (by decide) rfl raw raw' h)

/-- More entries neither mend nor break a definition. -/
theorem Extended.definitionIssues_eq (h : kind.Extended raw raw') :
    definitionIssues kind raw = definitionIssues kind raw' := by
  cases kind with
  | model => exact (alike_same_iff.2 h.check_model).issues_eq
  | component => exact (alike_same_iff.2 h.check_component).issues_eq

theorem Extended.rawSlug?_eq (h : kind.Extended raw raw') : rawSlug? raw = rawSlug? raw' := by
  cases kind with
  | model => exact ContentSchema.rawSlug?_eq (by decide) rfl h
  | component => exact ContentSchema.rawSlug?_eq (by decide) rfl h

end DefinitionKind

end ContentSchema
