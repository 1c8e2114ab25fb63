import ContentSchema.Definition.Validation
import ContentSchema.Proofs.Definition.Alike

/-!
# Definitions with more entries

An extension of a raw definition has more entries, in any of its objects, under names that are no
key of the record that the object is read as (`DefinitionKind.Extended`).
-/

namespace ContentSchema

/-! ### Objects with more entries -/

/-- The second object has the entries of the first, with related values, and between them others
under names that are no spelling of any of the keys. -/
inductive Entries.Extended (keys : List Key) (inside : String → Value → Value → Prop) :
    Entries → Entries → Prop where
  /-- Both objects end. -/
  | nil : Extended keys inside [] []
  /-- Both objects have an entry. -/
  | keep {name : String} {v w : Value} {entries entries' : Entries} (hvalue : inside name v w)
    (hrest : Extended keys inside entries entries') :
    Extended keys inside ((name, v) :: entries) ((name, w) :: entries')
  /-- The second object has an entry that no key is for. -/
  | add {name : String} {v : Value} {entries entries' : Entries}
    (hname : ∀ k ∈ keys, name ≠ k.primary ∧ name ≠ k.other)
    (hrest : Extended keys inside entries entries') :
    Extended keys inside entries ((name, v) :: entries')

/-- The second object has more entries, and nothing else differs. -/
abbrev Entries.Padded (keys : List Key) : Entries → Entries → Prop :=
  Entries.Extended keys fun _ => Eq

namespace Entries

theorem find?_cons (name : String) (v : Value) (entries : Entries) (key : String) :
    find? ((name, v) :: entries) key = if name = key then some v else entries.find? key := by
  by_cases hname : name = key
  · simp [find?, hname]
  · rw [find?, List.find?_cons_of_neg (by simpa using hname), if_neg hname]
    rfl

variable {keys : List Key} {inside : String → Value → Value → Prop} {entries entries' : Entries}

/-- Entries that no key is for do not come in the way of the others. -/
theorem Extended.agree (h : Extended keys inside entries entries') :
    Agree keys inside entries entries' := by
  intro k hk key hkey
  induction h with
  | nil => exact .none
  | @keep name v w entries entries' hvalue _ ih =>
    rw [find?_cons, find?_cons]
    by_cases hname : name = key
    · rw [if_pos hname, if_pos hname]
      exact .some (hname ▸ hvalue)
    · rw [if_neg hname, if_neg hname]
      exact ih
  | @add name v entries entries' hname _ ih =>
    have hne : name ≠ key := by
      rcases hkey with rfl | rfl
      · exact (hname k hk).1
      · exact (hname k hk).2
    rw [find?_cons, if_neg hne]
    exact ih

theorem Agree.find?_eq (h : Agree keys inside entries entries') (name : String)
    (hname : Key.plain name ∈ keys) (hinside : inside name = Eq) :
    entries.find? name = entries'.find? name := by
  have hrel := h _ hname name (Or.inl rfl)
  rw [hinside] at hrel
  generalize entries.find? name = v at hrel ⊢
  generalize entries'.find? name = w at hrel ⊢
  cases hrel with
  | none => rfl
  | some h => rw [h]

end Entries

/-! ### What may differ inside the objects of a definition -/

/-- What may differ inside a component context. -/
def ComponentContext.inside (name : String) : Value → Value → Prop :=
  if name ∈ ["aiPrompt", "ai_prompt"] then Value.InObject (Entries.Padded PromptContext.keys)
  else if name ∈ ["abTesting", "ab_testing"] then
    Value.InObject (Entries.Padded VariantContext.keys)
  else Eq

namespace FieldConfig

/-- The keys of a configuration by its type. -/
def keys : FieldType → List Key
  | .text => TextConfig.keys
  | .number => NumberConfig.keys
  | .boolean => BooleanConfig.keys
  | .select => SelectConfig.keys
  | .media => MediaConfig.keys
  | .relation => RelationConfig.keys
  | .date => DateConfig.keys
  | .component => ComponentConfig.keys
  | .rich | .json => [typeKey]

/-- What may differ inside a configuration, by its type. -/
def inside : FieldType → String → Value → Value → Prop
  | .select, name =>
    if name = "options" then
      Value.InItems (Value.InObject (Entries.Padded SelectOption.keys))
    else Eq
  | .component, name =>
    if name = "context" then
      Value.InObject (Entries.Extended ComponentContext.keys ComponentContext.inside)
    else Eq
  | _, _ => Eq

/-- The type that is named by a tag. -/
def typeOf? (tag : Option Value) : Option FieldType :=
  tag.bind fun v => v.asText?.bind FieldType.ofName?

/-- A configuration has more entries, where one without a tag of its own inherits the tag.  A
configuration whose tag names no type is not read as a record, and only its tag is looked at. -/
def Extended (inherited : Option Value) (config config' : Entries) : Prop :=
  match typeOf? ((config.find? "type").or inherited) with
  | some type => Entries.Extended (keys type) (inside type) config config'
  | none => Entries.Padded [typeKey] config config'

end FieldConfig

namespace Field

/-- What may differ inside a field. -/
def inside (entries : Entries) (name : String) : Value → Value → Prop :=
  if name = "config" then Value.InObject (FieldConfig.Extended (entries.find? "type"))
  else if name = "validation" then Value.InObject (Entries.Padded FieldRules.keys)
  else Eq

/-- A field has more entries. -/
def Extended (entries entries' : Entries) : Prop :=
  Entries.Extended keys (inside entries) entries entries'

end Field

namespace ContentModel

/-- What may differ inside a model. -/
def inside (name : String) : Value → Value → Prop :=
  if name = "fields" then Value.InItems (Value.InObject Field.Extended)
  else if name = "settings" then Value.InObject (Entries.Padded ModelSettings.keys)
  else Eq

end ContentModel

namespace Component

/-- What may differ inside a component. -/
def inside (name : String) : Value → Value → Prop :=
  if name = "fields" then Value.InItems (Value.InObject Field.Extended) else Eq

end Component

/-- A raw definition has more entries, in any of its objects. -/
def DefinitionKind.Extended : DefinitionKind → Value → Value → Prop
  | model => Value.InObject (Entries.Extended ContentModel.keys ContentModel.inside)
  | component => Value.InObject (Entries.Extended Component.keys Component.inside)

end ContentSchema
