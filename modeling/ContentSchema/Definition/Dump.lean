import ContentSchema.Definition.Basic

/-!
# Definitions as values

Every part of a definition as an object with all its keys, those left out included, and with the
unknown entries behind them.  An unknown entry whose key is also a known one takes its place.
-/

namespace ContentSchema

/-- A number as a value. -/
def Num.toValue : Num → Value
  | .int n => .int n
  | .float x => .float x

namespace Value

/-- Nothing or a truth value. -/
def ofBool? : Option Bool → Value
  | some b => bool b
  | none => null

/-- Nothing or a number. -/
def ofNum? : Option Num → Value
  | some n => n.toValue
  | none => null

/-- An object with known entries and unknown ones. -/
def record (known : Entries) (extras : Entries) : Value := object (known.insertAll extras)

end Value

open Value (ofBool? ofNum? ofText? record)

/-- A field's rules as a value. -/
def FieldRules.toValue (r : FieldRules) : Value := record [
  ("min_length", ofNum? r.minLength), ("max_length", ofNum? r.maxLength),
  ("pattern", ofText? r.pattern), ("email", ofBool? r.email), ("url", ofBool? r.url),
  ("uuid", ofBool? r.uuid), ("cuid", ofBool? r.cuid), ("min", ofNum? r.min),
  ("max", ofNum? r.max), ("integer", ofBool? r.integer), ("positive", ofBool? r.positive),
  ("negative", ofBool? r.negative), ("min_items", ofNum? r.minItems),
  ("max_items", ofNum? r.maxItems), ("min_date", ofText? r.minDate),
  ("max_date", ofText? r.maxDate), ("custom", ofText? r.custom),
  ("error_message", ofText? r.errorMessage)] r.extras

/-- A choice as a value. -/
def SelectOption.toValue : SelectOption → Value
  | plain value => .text value
  | labelled value label extras => record [("value", .text value), ("label", .text label)] extras

/-- What is selected at first, as a value. -/
def SelectDefault.toValue : SelectDefault → Value
  | one value => .text value
  | many values => .ofTexts values

/-- A drafting context as a value. -/
def PromptContext.toValue (c : PromptContext) : Value := record [
  ("template", .text c.template), ("auto_generate", .bool c.autoGenerate),
  ("include_history", .bool c.includeHistory)] c.extras

/-- A variant context as a value. -/
def VariantContext.toValue (c : VariantContext) : Value := record [
  ("enabled", .bool c.enabled), ("variant_count", .int c.variantCount)] c.extras

/-- A component context as a value. -/
def ComponentContext.toValue (c : ComponentContext) : Value := record [
  ("ai_prompt", (c.prompt.map (·.toValue)).getD .null),
  ("ab_testing", (c.variants.map (·.toValue)).getD .null)] c.extras

/-- The entries of a configuration but for its type, and its unknown entries. -/
def FieldConfig.parts : FieldConfig → Entries × Entries
  | .text c => ([("multiline", ofBool? c.multiline), ("default", ofText? c.default)], c.extras)
  | .rich c => ([], c.extras)
  | .number c =>
    ([("step", ofNum? c.step), ("default", ofNum? c.default),
      ("format", ofText? (c.format.map (·.name)))], c.extras)
  | .boolean c => ([("default", ofBool? c.default)], c.extras)
  | .select c =>
    ([("multiple", .bool c.multiple), ("options", .list (c.options.map (·.toValue))),
      ("default", (c.default.map (·.toValue)).getD .null)], c.extras)
  | .json c => ([], c.extras)
  | .media c => ([("multiple", .bool c.multiple)], c.extras)
  | .relation c =>
    ([("relation_type", .text c.cardinality.name), ("target_model", .text c.target),
      ("display_field", ofText? c.displayField), ("cascade", .text c.cascade.name)], c.extras)
  | .date c => ([("format", .text c.format.name), ("default", ofText? c.default)], c.extras)
  | .component c =>
    ([("slug", .text c.slug), ("repeatable", .bool c.repeatable),
      ("context", (c.context.map (·.toValue)).getD .null)], c.extras)

/-- A configuration as a value. -/
def FieldConfig.toValue (c : FieldConfig) : Value :=
  record (("type", .text c.type.name) :: c.parts.1) c.parts.2

/-- The unknown entries of a configuration. -/
def FieldConfig.extras (c : FieldConfig) : Entries := c.parts.2

/-- A field as a value. -/
def Field.toValue (f : Field) : Value := record [
  ("key", .text f.key), ("label", .text f.label), ("type", .text f.type.name),
  ("config", (f.config.map (·.toValue)).getD .null), ("required", .bool f.required),
  ("translatable", .bool f.translatable),
  ("validation", (f.rules.map (·.toValue)).getD .null), ("derived", .bool f.derived)] f.extras

/-- A model's settings as a value. -/
def ModelSettings.toValue (s : ModelSettings) : Value := record [
  ("enable_i18n", ofBool? s.translated), ("sort_field", ofText? s.sortField)] s.extras

/-- A model as a value. -/
def ContentModel.toValue (m : ContentModel) : Value := record [
  ("slug", .text m.slug), ("name", .text m.name),
  ("fields", .list (m.fields.map (·.toValue))), ("settings", m.settings.toValue)] m.extras

/-- A component as a value. -/
def Component.toValue (c : Component) : Value := record [
  ("slug", .text c.slug), ("name", .text c.name),
  ("fields", .list (c.fields.map (·.toValue)))] c.extras

end ContentSchema
