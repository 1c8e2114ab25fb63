import ContentSchema.Reading.Record

/-!
# Reading definitions

Models, components and their parts out of values of unknown shape.  A field's configuration may
leave out its type, which it then takes from the field (`Field.inheritType`).
-/

namespace ContentSchema

open Record

namespace FieldRules

/-- The keys of a field's rules. -/
def keys : List Key := [
  ⟨"minLength", "min_length"⟩, ⟨"maxLength", "max_length"⟩, .plain "pattern", .plain "email",
  .plain "url", .plain "uuid", .plain "cuid", .plain "min", .plain "max", ⟨"int", "integer"⟩,
  .plain "positive", .plain "negative", ⟨"minItems", "min_items"⟩, ⟨"maxItems", "max_items"⟩,
  ⟨"minDate", "min_date"⟩, ⟨"maxDate", "max_date"⟩, .plain "custom",
  ⟨"errorMessage", "error_message"⟩]

/-- Reads a field's rules. -/
def read : Reader FieldRules := object "FieldValidation" fun entries =>
  FieldRules.mk
    <$> optionally ⟨"minLength", "min_length"⟩ Reader.num entries
    <*> optionally ⟨"maxLength", "max_length"⟩ Reader.num entries
    <*> optionally (.plain "pattern") Reader.text entries
    <*> optionally (.plain "email") Reader.bool entries
    <*> optionally (.plain "url") Reader.bool entries
    <*> optionally (.plain "uuid") Reader.bool entries
    <*> optionally (.plain "cuid") Reader.bool entries
    <*> optionally (.plain "min") Reader.num entries
    <*> optionally (.plain "max") Reader.num entries
    <*> optionally ⟨"int", "integer"⟩ Reader.bool entries
    <*> optionally (.plain "positive") Reader.bool entries
    <*> optionally (.plain "negative") Reader.bool entries
    <*> optionally ⟨"minItems", "min_items"⟩ Reader.num entries
    <*> optionally ⟨"maxItems", "max_items"⟩ Reader.num entries
    <*> optionally ⟨"minDate", "min_date"⟩ Reader.text entries
    <*> optionally ⟨"maxDate", "max_date"⟩ Reader.text entries
    <*> optionally (.plain "custom") Reader.text entries
    <*> optionally ⟨"errorMessage", "error_message"⟩ Reader.text entries
    <*> keepUnknown keys entries

end FieldRules

/-! ### Configurations -/

/-- The key that names the type of a field or configuration. -/
def typeKey : Key := .plain "type"

namespace TextConfig

/-- The keys of a text configuration. -/
def keys : List Key := [typeKey, .plain "multiline", .plain "default"]

/-- Reads a text configuration. -/
def read : Reader TextConfig := object "TextConfig" fun entries =>
  (fun _ => TextConfig.mk)
    <$> literal typeKey "text" entries
    <*> optionally (.plain "multiline") Reader.bool entries
    <*> optionally (.plain "default") Reader.text entries
    <*> keepUnknown keys entries

end TextConfig

namespace BareConfig

/-- Reads a configuration without options, for the type with the given name. -/
def read (record type : String) : Reader BareConfig := object record fun entries =>
  (fun _ => BareConfig.mk)
    <$> literal typeKey type entries
    <*> keepUnknown [typeKey] entries

end BareConfig

namespace NumberConfig

/-- The keys of a number configuration. -/
def keys : List Key := [typeKey, .plain "step", .plain "default", .plain "format"]

/-- Reads a number configuration. -/
def read : Reader NumberConfig := object "NumberConfig" fun entries =>
  (fun _ => NumberConfig.mk)
    <$> literal typeKey "number" entries
    <*> optionally (.plain "step") Reader.num entries
    <*> optionally (.plain "default") Reader.num entries
    <*> optionally (.plain "format") (Reader.oneOf NumberFormat.all NumberFormat.name) entries
    <*> keepUnknown keys entries

end NumberConfig

namespace BooleanConfig

/-- The keys of a boolean configuration. -/
def keys : List Key := [typeKey, .plain "default"]

/-- Reads a boolean configuration. -/
def read : Reader BooleanConfig := object "BooleanConfig" fun entries =>
  (fun _ => BooleanConfig.mk)
    <$> literal typeKey "boolean" entries
    <*> optionally (.plain "default") Reader.bool entries
    <*> keepUnknown keys entries

end BooleanConfig

namespace SelectOption

/-- The keys of a choice with a label. -/
def keys : List Key := [.plain "value", .plain "label"]

/-- Reads a choice with a label. -/
def readLabelled : Reader SelectOption := object "SelectOption" fun entries =>
  SelectOption.labelled
    <$> required (.plain "value") Reader.text entries
    <*> required (.plain "label") Reader.text entries
    <*> keepUnknown keys entries

/-- Reads a choice. -/
def read : Reader SelectOption :=
  Reader.either "str" (fun v => plain <$> Reader.text v) "SelectOption" readLabelled

end SelectOption

/-- Reads what a select field selects at first. -/
def SelectDefault.read : Reader SelectDefault :=
  Reader.either "str" (fun v => one <$> Reader.text v)
    "list[str]" (fun v => many <$> Reader.list Reader.text v)

namespace SelectConfig

/-- The keys of a select configuration. -/
def keys : List Key := [typeKey, .plain "multiple", .plain "options", .plain "default"]

/-- Reads a select configuration. -/
def read : Reader SelectConfig := object "SelectConfig" fun entries =>
  (fun _ => SelectConfig.mk)
    <$> literal typeKey "select" entries
    <*> defaulted (.plain "multiple") false Reader.bool entries
    <*> required (.plain "options") (Reader.nonEmptyList SelectOption.read) entries
    <*> optionally (.plain "default") SelectDefault.read entries
    <*> keepUnknown keys entries

end SelectConfig

namespace MediaConfig

/-- The keys of a media configuration. -/
def keys : List Key := [typeKey, .plain "multiple"]

/-- Reads a media configuration. -/
def read : Reader MediaConfig := object "MediaConfig" fun entries =>
  (fun _ => MediaConfig.mk)
    <$> literal typeKey "media" entries
    <*> defaulted (.plain "multiple") false Reader.bool entries
    <*> keepUnknown keys entries

end MediaConfig

namespace RelationConfig

/-- The keys of a relation configuration. -/
def keys : List Key := [
  typeKey, ⟨"relationType", "relation_type"⟩, ⟨"targetModel", "target_model"⟩,
  ⟨"displayField", "display_field"⟩, .plain "cascade"]

/-- Reads a relation configuration. -/
def read : Reader RelationConfig := object "RelationConfig" fun entries =>
  (fun _ => RelationConfig.mk)
    <$> literal typeKey "relation" entries
    <*> required ⟨"relationType", "relation_type"⟩ (Reader.oneOf Cardinality.all Cardinality.name)
      entries
    <*> required ⟨"targetModel", "target_model"⟩ Reader.nonEmptyText entries
    <*> optionally ⟨"displayField", "display_field"⟩ Reader.text entries
    <*> defaulted (.plain "cascade") .restrict (Reader.oneOf CascadePolicy.all CascadePolicy.name)
      entries
    <*> keepUnknown keys entries

end RelationConfig

namespace DateConfig

/-- The keys of a date configuration. -/
def keys : List Key := [typeKey, .plain "format", .plain "default"]

/-- Reads a date configuration. -/
def read : Reader DateConfig := object "DateConfig" fun entries =>
  (fun _ => DateConfig.mk)
    <$> literal typeKey "date" entries
    <*> defaulted (.plain "format") .date (Reader.oneOf DateFormat.all DateFormat.name) entries
    <*> optionally (.plain "default") Reader.text entries
    <*> keepUnknown keys entries

end DateConfig

namespace PromptContext

/-- The keys of a drafting context. -/
def keys : List Key := [
  .plain "template", ⟨"autoGenerate", "auto_generate"⟩, ⟨"includeHistory", "include_history"⟩]

/-- Reads a drafting context. -/
def read : Reader PromptContext := object "AIPromptContext" fun entries =>
  PromptContext.mk
    <$> required (.plain "template") Reader.text entries
    <*> defaulted ⟨"autoGenerate", "auto_generate"⟩ false Reader.bool entries
    <*> defaulted ⟨"includeHistory", "include_history"⟩ true Reader.bool entries
    <*> keepUnknown keys entries

end PromptContext

namespace VariantContext

/-- The keys of a variant context. -/
def keys : List Key := [.plain "enabled", ⟨"variantCount", "variant_count"⟩]

/-- Reads a variant context. -/
def read : Reader VariantContext := object "ABTestingContext" fun entries =>
  VariantContext.mk
    <$> defaulted (.plain "enabled") false Reader.bool entries
    <*> defaulted ⟨"variantCount", "variant_count"⟩ 3 (Reader.intBetween 2 5) entries
    <*> keepUnknown keys entries

end VariantContext

namespace ComponentContext

/-- The keys of a component context. -/
def keys : List Key := [⟨"aiPrompt", "ai_prompt"⟩, ⟨"abTesting", "ab_testing"⟩]

/-- Reads a component context. -/
def read : Reader ComponentContext := object "ComponentContext" fun entries =>
  ComponentContext.mk
    <$> optionally ⟨"aiPrompt", "ai_prompt"⟩ PromptContext.read entries
    <*> optionally ⟨"abTesting", "ab_testing"⟩ VariantContext.read entries
    <*> keepUnknown keys entries

end ComponentContext

namespace ComponentConfig

/-- The keys of a component configuration. -/
def keys : List Key := [typeKey, .plain "slug", .plain "repeatable", .plain "context"]

/-- Reads a component configuration. -/
def read : Reader ComponentConfig := object "ComponentConfig" fun entries =>
  (fun _ => ComponentConfig.mk)
    <$> literal typeKey "component" entries
    <*> required (.plain "slug") Reader.slug entries
    <*> defaulted (.plain "repeatable") false Reader.bool entries
    <*> optionally (.plain "context") ComponentContext.read entries
    <*> keepUnknown keys entries

end ComponentConfig

namespace FieldConfig

/-- The types in the order in which a message lists them. -/
def tags : List FieldType :=
  [.text, .rich, .number, .boolean, .select, .json, .media, .relation, .date, .component]

/-- Reads the configuration of a field of the given type. -/
def readAs (type : FieldType) : Reader FieldConfig := fun v =>
  match type with
  | .text => text <$> TextConfig.read v
  | .rich => rich <$> BareConfig.read "RichConfig" FieldType.rich.name v
  | .number => number <$> NumberConfig.read v
  | .boolean => boolean <$> BooleanConfig.read v
  | .select => select <$> SelectConfig.read v
  | .json => json <$> BareConfig.read "JsonConfig" FieldType.json.name v
  | .media => media <$> MediaConfig.read v
  | .relation => relation <$> RelationConfig.read v
  | .date => date <$> DateConfig.read v
  | .component => component <$> ComponentConfig.read v

/-- Reads a configuration that names its own type. -/
def read : Reader FieldConfig
  | .object entries =>
    match Entries.find? entries "type" with
    | none => .fail .untagged
    | some tag =>
      match tag.asText?.bind FieldType.ofName? with
      | some type => (readAs type (.object entries)).within type.name
      | none => .fail (.unknownTag tag.display (tags.map FieldType.name))
  | _ => .fail .notTagged

end FieldConfig

/-! ### Fields -/

namespace Field

/-- Keys that every table uses for itself. -/
def systemKeys : List String := ["id", "created_at", "updated_at"]

/-- The keys of a field. -/
def keys : List Key := [
  .plain "key", .plain "label", typeKey, .plain "config", .plain "required",
  .plain "translatable", .plain "validation", .plain "derived"]

/-- Gives a configuration that does not name its type the type of its field. -/
def inheritType (entries : Entries) : Entries :=
  match entries.find? "config", entries.find? "type" with
  | some (.object config), some type =>
    if Entries.has config "type" then entries
    else entries.insert "config" (.object (Entries.insert config "type" type))
  | _, _ => entries

/-- Reads the key of a field. -/
def readKey : Reader String := fun v =>
  ((Reader.nonEmptyText v).ensure fun s => if Reader.isSlug s then none else some .notSlug).ensure
    fun s => if s ∈ systemKeys then some (.systemKey s) else none

/-- What is wrong between the type of a field and its configuration. -/
def configFault (f : Field) : Option Fault :=
  match f.config with
  | none => if f.type.needsConfig then some (.configMissing f.type.name) else none
  | some c =>
    if c.type = f.type then none else some (.configMismatch c.type.name f.type.name)

/-- Reads the parts of a field, which need not fit together. -/
def readParts (entries : Entries) : Checked Field :=
  Field.mk
    <$> Record.required (.plain "key") readKey entries
    <*> Record.required (.plain "label") Reader.nonEmptyText entries
    <*> Record.required typeKey (Reader.oneOf FieldType.all FieldType.name) entries
    <*> optionally (.plain "config") FieldConfig.read entries
    <*> defaulted (.plain "required") false Reader.bool entries
    <*> defaulted (.plain "translatable") true Reader.bool entries
    <*> optionally (.plain "validation") FieldRules.read entries
    <*> defaulted (.plain "derived") false Reader.bool entries
    <*> keepUnknown keys entries

/-- Reads a field. -/
def read : Reader Field := object "FieldDefinition" fun entries =>
  (readParts (inheritType entries)).ensure configFault

end Field

/-! ### Models and components -/

namespace ModelSettings

/-- The keys of a model's settings. -/
def keys : List Key := [⟨"enableI18n", "enable_i18n"⟩, ⟨"sortField", "sort_field"⟩]

/-- Reads a model's settings. -/
def read : Reader ModelSettings := object "ModelSettings" fun entries =>
  ModelSettings.mk
    <$> optionally ⟨"enableI18n", "enable_i18n"⟩ Reader.bool entries
    <*> optionally ⟨"sortField", "sort_field"⟩ Reader.text entries
    <*> keepUnknown keys entries

/-- Settings that leave everything open. -/
def unset : ModelSettings := ⟨none, none, []⟩

end ModelSettings

namespace ContentModel

/-- The keys of a model. -/
def keys : List Key := [.plain "slug", .plain "name", .plain "fields", .plain "settings"]

/-- Reads a model; rules that look at several fields are not applied. -/
def read : Reader ContentModel := object "ModelDefinition" fun entries =>
  ContentModel.mk
    <$> required (.plain "slug") Reader.slug entries
    <*> required (.plain "name") Reader.nonEmptyText entries
    <*> required (.plain "fields") (Reader.nonEmptyList Field.read) entries
    <*> defaulted (.plain "settings") .unset ModelSettings.read entries
    <*> keepUnknown keys entries

end ContentModel

namespace Component

/-- The keys of a component. -/
def keys : List Key := [.plain "slug", .plain "name", .plain "fields"]

/-- Reads a component; rules that look at several fields are not applied. -/
def read : Reader Component := object "ComponentDefinition" fun entries =>
  Component.mk
    <$> required (.plain "slug") Reader.slug entries
    <*> required (.plain "name") Reader.nonEmptyText entries
    <*> required (.plain "fields") (Reader.nonEmptyList Field.read) entries
    <*> keepUnknown keys entries

end Component

end ContentSchema
