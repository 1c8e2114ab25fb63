import ContentSchema.Definition.Reading

/-!
# Definitions without unknown entries

Records keep the entries that they do not know.  `known` leaves them out, at every depth; what the
library asks of a field does not depend on them.
-/

namespace ContentSchema

/-! ### Rules and configurations -/

namespace FieldRules

/-- The rules without unknown entries. -/
def known (r : FieldRules) : FieldRules := { r with extras := [] }

end FieldRules

namespace SelectOption

/-- The choice without unknown entries. -/
def known : SelectOption → SelectOption
  | plain value => plain value
  | labelled value label _ => labelled value label []

end SelectOption

namespace PromptContext

/-- The context without unknown entries. -/
def known (c : PromptContext) : PromptContext := { c with extras := [] }

end PromptContext

namespace VariantContext

/-- The context without unknown entries. -/
def known (c : VariantContext) : VariantContext := { c with extras := [] }

end VariantContext

namespace ComponentContext

/-- The context without unknown entries. -/
def known (c : ComponentContext) : ComponentContext :=
  ⟨c.prompt.map (·.known), c.variants.map (·.known), []⟩

@[simp] theorem hasVariants_known (c : ComponentContext) : c.known.hasVariants = c.hasVariants := by
  rw [hasVariants, known, hasVariants]
  cases c.variants <;> rfl

end ComponentContext

namespace FieldConfig

/-- The configuration without unknown entries. -/
def known : FieldConfig → FieldConfig
  | text c => text { c with extras := [] }
  | rich _ => rich ⟨[]⟩
  | number c => number { c with extras := [] }
  | boolean c => boolean { c with extras := [] }
  | select c => select { c with options := c.options.map (·.known), extras := [] }
  | json _ => json ⟨[]⟩
  | media c => media { c with extras := [] }
  | relation c => relation { c with extras := [] }
  | date c => date { c with extras := [] }
  | component c => component { c with context := c.context.map (·.known), extras := [] }

@[simp] theorem type_known (c : FieldConfig) : c.known.type = c.type := by
  cases c <;> rfl

end FieldConfig

/-! ### Fields -/

namespace Field

/-- The field without unknown entries. -/
def known (f : Field) : Field :=
  { f with config := f.config.map (·.known), rules := f.rules.map (·.known), extras := [] }

variable (f : Field)

@[simp] theorem key_known : f.known.key = f.key := rfl

@[simp] theorem type_known : f.known.type = f.type := rfl

theorem configFault_known : f.known.configFault = f.configFault := by
  rw [configFault, configFault, known]
  cases f.config with
  | none => rfl
  | some c => simp

theorem relation?_known :
    f.known.relation? = f.relation?.map fun c => { c with extras := [] } := by
  rw [relation?, relation?, known]
  cases f.config with
  | none => rfl
  | some c => cases c <;> rfl

theorem component?_known : f.known.component? =
    f.component?.map fun c => { c with context := c.context.map (·.known), extras := [] } := by
  rw [component?, component?, known]
  cases f.config with
  | none => rfl
  | some c => cases c <;> rfl

end Field

/-! ### Models and components -/

namespace ModelSettings

/-- The settings without unknown entries. -/
def known (s : ModelSettings) : ModelSettings := { s with extras := [] }

end ModelSettings

namespace ContentModel

/-- The model without unknown entries. -/
def known (m : ContentModel) : ContentModel :=
  { m with fields := m.fields.map (·.known), settings := m.settings.known, extras := [] }

variable (m : ContentModel)

@[simp] theorem slug_known : m.known.slug = m.slug := rfl

theorem storedFields_known : m.known.storedFields = m.storedFields.map (·.known) :=
  List.filter_map

theorem fieldKeys_known : m.known.fieldKeys = m.fieldKeys := by
  rw [fieldKeys, known, List.map_map]
  rfl

end ContentModel

namespace Component

/-- The component without unknown entries. -/
def known (c : Component) : Component :=
  { c with fields := c.fields.map (·.known), extras := [] }

variable (c : Component)

@[simp] theorem slug_known : c.known.slug = c.slug := rfl

theorem storedFields_known : c.known.storedFields = c.storedFields.map (·.known) :=
  List.filter_map

end Component

end ContentSchema
