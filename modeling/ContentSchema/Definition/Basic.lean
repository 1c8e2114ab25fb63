import ContentSchema.Value

/-!
# Content definitions

What users write: content models and reusable components, made of typed fields.  Every record keeps
the entries it does not know in `extras`, so that definitions written for newer tools still load.
-/

namespace ContentSchema

/-- A number that is either whole or a double. -/
inductive Num where
  /-- A whole number. -/
  | int (n : Int)
  /-- A double. -/
  | float (x : Double)
deriving DecidableEq, Repr

/-- The types a field may have. -/
inductive FieldType where
  | text | rich | number | boolean | date | select | json | media | relation | component
deriving DecidableEq, Repr

namespace FieldType

/-- All field types. -/
def all : List FieldType :=
  [text, rich, number, boolean, date, select, json, media, relation, component]

/-- The name of a field type in definitions. -/
def name : FieldType → String
  | text => "text"
  | rich => "rich"
  | number => "number"
  | boolean => "boolean"
  | date => "date"
  | select => "select"
  | json => "json"
  | media => "media"
  | relation => "relation"
  | component => "component"

/-- The field type with a name. -/
def ofName? (s : String) : Option FieldType := all.find? fun t => t.name == s

/-- Whether a field of this type must have a configuration. -/
def needsConfig : FieldType → Bool
  | select | relation | component => true
  | _ => false

theorem ofName?_name (t : FieldType) : ofName? t.name = some t := by cases t <;> rfl

end FieldType

/-- How many rows each side of a relation may have. -/
inductive Cardinality where
  | oneToOne | manyToOne | oneToMany | manyToMany
deriving DecidableEq, Repr

namespace Cardinality

/-- All cardinalities. -/
def all : List Cardinality := [oneToOne, manyToOne, oneToMany, manyToMany]

/-- The name of a cardinality in definitions. -/
def name : Cardinality → String
  | oneToOne => "oneToOne"
  | manyToOne => "manyToOne"
  | oneToMany => "oneToMany"
  | manyToMany => "manyToMany"

end Cardinality

/-- What happens to the owner of a relation when the related row is deleted. -/
inductive CascadePolicy where
  | restrict | cascade | setNull
deriving DecidableEq, Repr

namespace CascadePolicy

/-- All cascade policies. -/
def all : List CascadePolicy := [restrict, cascade, setNull]

/-- The name of a cascade policy in definitions. -/
def name : CascadePolicy → String
  | restrict => "restrict"
  | cascade => "cascade"
  | setNull => "setNull"

end CascadePolicy

/-- How the numbers of a field are meant. -/
inductive NumberFormat where
  | integer | decimal | currency | percentage
deriving DecidableEq, Repr

namespace NumberFormat

/-- All number formats. -/
def all : List NumberFormat := [integer, decimal, currency, percentage]

/-- The name of a number format in definitions. -/
def name : NumberFormat → String
  | integer => "integer"
  | decimal => "decimal"
  | currency => "currency"
  | percentage => "percentage"

end NumberFormat

/-- Which part of a moment a date field holds. -/
inductive DateFormat where
  | date | datetime | time
deriving DecidableEq, Repr

namespace DateFormat

/-- All date formats. -/
def all : List DateFormat := [date, datetime, time]

/-- The name of a date format in definitions. -/
def name : DateFormat → String
  | date => "date"
  | datetime => "datetime"
  | time => "time"

end DateFormat

/-! ### Validation rules of a field -/

/-- Rules for the content of a field.  They travel to the schema as a comment and are never
enforced here. -/
structure FieldRules where
  /-- Least length of a text. -/
  minLength : Option Num
  /-- Greatest length of a text. -/
  maxLength : Option Num
  /-- Regular expression that a text has to match. -/
  pattern : Option String
  /-- Must be a mail address. -/
  email : Option Bool
  /-- Must be a URL. -/
  url : Option Bool
  /-- Must be a UUID. -/
  uuid : Option Bool
  /-- Must be a CUID. -/
  cuid : Option Bool
  /-- Least value of a number. -/
  min : Option Num
  /-- Greatest value of a number. -/
  max : Option Num
  /-- Must be a whole number. -/
  integer : Option Bool
  /-- Must be positive. -/
  positive : Option Bool
  /-- Must be negative. -/
  negative : Option Bool
  /-- Least number of items. -/
  minItems : Option Num
  /-- Greatest number of items. -/
  maxItems : Option Num
  /-- Earliest date. -/
  minDate : Option String
  /-- Latest date. -/
  maxDate : Option String
  /-- A rule in the language of the comment. -/
  custom : Option String
  /-- What to tell users whose content breaks a rule. -/
  errorMessage : Option String
  /-- Entries not known here. -/
  extras : Entries
deriving Repr, BEq

/-! ### Configuration of a field, by type -/

/-- One choice of a select field. -/
inductive SelectOption where
  /-- A choice that is its own label. -/
  | plain (value : String)
  /-- A choice with a label. -/
  | labelled (value label : String) (extras : Entries)
deriving Repr, BEq

/-- What a select field selects at first. -/
inductive SelectDefault where
  /-- One choice. -/
  | one (value : String)
  /-- Several choices. -/
  | many (values : List String)
deriving DecidableEq, Repr

/-- Configuration of a text field. -/
structure TextConfig where
  /-- Whether the text has several lines. -/
  multiline : Option Bool
  /-- The text at first. -/
  default : Option String
  /-- Entries not known here. -/
  extras : Entries
deriving Repr, BEq

/-- Configuration of a field type without options of its own. -/
structure BareConfig where
  /-- Entries not known here. -/
  extras : Entries
deriving Repr, BEq

/-- Configuration of a number field. -/
structure NumberConfig where
  /-- Distance between neighbouring values. -/
  step : Option Num
  /-- The number at first. -/
  default : Option Num
  /-- How the number is meant. -/
  format : Option NumberFormat
  /-- Entries not known here. -/
  extras : Entries
deriving Repr, BEq

/-- Configuration of a boolean field. -/
structure BooleanConfig where
  /-- The value at first. -/
  default : Option Bool
  /-- Entries not known here. -/
  extras : Entries
deriving Repr, BEq

/-- Configuration of a select field. -/
structure SelectConfig where
  /-- Whether several choices may be taken. -/
  multiple : Bool
  /-- The choices. -/
  options : List SelectOption
  /-- What is selected at first. -/
  default : Option SelectDefault
  /-- Entries not known here. -/
  extras : Entries
deriving Repr, BEq

/-- Configuration of a media field. -/
structure MediaConfig where
  /-- Whether the field holds several media. -/
  multiple : Bool
  /-- Entries not known here. -/
  extras : Entries
deriving Repr, BEq

/-- Target and cardinality of a relation field. -/
structure RelationConfig where
  /-- How many rows each side may have. -/
  cardinality : Cardinality
  /-- Slug of the target model, or the name of an external table. -/
  target : String
  /-- The field of the target that stands for it in lists. -/
  displayField : Option String
  /-- What happens when the related row is deleted. -/
  cascade : CascadePolicy
  /-- Entries not known here. -/
  extras : Entries
deriving Repr, BEq

/-- Configuration of a date field. -/
structure DateConfig where
  /-- Which part of a moment the field holds. -/
  format : DateFormat
  /-- The date at first. -/
  default : Option String
  /-- Entries not known here. -/
  extras : Entries
deriving Repr, BEq

/-- How component content is drafted by a language model. -/
structure PromptContext where
  /-- Text of the prompt. -/
  template : String
  /-- Whether drafts are made unasked. -/
  autoGenerate : Bool
  /-- Whether earlier drafts are shown to the model. -/
  includeHistory : Bool
  /-- Entries not known here. -/
  extras : Entries
deriving Repr, BEq

/-- Whether a component comes in variants that are tested against each other. -/
structure VariantContext where
  /-- Whether there are variants. -/
  enabled : Bool
  /-- How many, from two to five. -/
  variantCount : Int
  /-- Entries not known here. -/
  extras : Entries
deriving Repr, BEq

/-- Circumstances of an embedded component. -/
structure ComponentContext where
  /-- Drafting by a language model. -/
  prompt : Option PromptContext
  /-- Variants. -/
  variants : Option VariantContext
  /-- Entries not known here. -/
  extras : Entries
deriving Repr, BEq

/-- Whether the component has variants that are tested against each other. -/
def ComponentContext.hasVariants (c : ComponentContext) : Bool :=
  match c.variants with
  | some v => v.enabled
  | none => false

/-- Reference from a field to a component. -/
structure ComponentConfig where
  /-- Slug of the component. -/
  slug : String
  /-- Whether the field holds several instances. -/
  repeatable : Bool
  /-- Circumstances of the embedding. -/
  context : Option ComponentContext
  /-- Entries not known here. -/
  extras : Entries
deriving Repr, BEq

/-- Configuration of a field. -/
inductive FieldConfig where
  | text (config : TextConfig)
  | rich (config : BareConfig)
  | number (config : NumberConfig)
  | boolean (config : BooleanConfig)
  | select (config : SelectConfig)
  | json (config : BareConfig)
  | media (config : MediaConfig)
  | relation (config : RelationConfig)
  | date (config : DateConfig)
  | component (config : ComponentConfig)
deriving Repr, BEq

/-- The field type that a configuration belongs to. -/
def FieldConfig.type : FieldConfig → FieldType
  | .text _ => .text
  | .rich _ => .rich
  | .number _ => .number
  | .boolean _ => .boolean
  | .select _ => .select
  | .json _ => .json
  | .media _ => .media
  | .relation _ => .relation
  | .date _ => .date
  | .component _ => .component

/-! ### Fields, models and components -/

/-- One typed attribute of a model or component. -/
structure Field where
  /-- The key, unique within its owner. -/
  key : String
  /-- What users read. -/
  label : String
  /-- The type. -/
  type : FieldType
  /-- Configuration of the type. -/
  config : Option FieldConfig
  /-- Whether content must be given. -/
  required : Bool
  /-- Whether content differs between languages. -/
  translatable : Bool
  /-- Rules for the content. -/
  rules : Option FieldRules
  /-- Whether the content is computed and not stored. -/
  derived : Bool
  /-- Entries not known here. -/
  extras : Entries
deriving Repr, BEq

namespace Field

/-- Whether the field moves to a translation table; relations and components never do. -/
def isTranslatable (f : Field) : Bool :=
  match f.type with
  | .relation | .component => false
  | _ => f.translatable

/-- The relation that the field declares. -/
def relation? (f : Field) : Option RelationConfig :=
  match f.config with
  | some (.relation c) => some c
  | _ => none

/-- The component that the field embeds. -/
def component? (f : Field) : Option ComponentConfig :=
  match f.config with
  | some (.component c) => some c
  | _ => none

/-- A short text naming the field. -/
def summary (f : Field) : String := "<Field " ++ f.key ++ ": " ++ f.type.name ++ ">"

end Field

/-- Settings of a content model. -/
structure ModelSettings where
  /-- Whether the model takes part in translation; nothing leaves it to the run. -/
  translated : Option Bool
  /-- The field by which entries are sorted. -/
  sortField : Option String
  /-- Entries not known here. -/
  extras : Entries
deriving Repr, BEq

/-- A content model, which becomes a table. -/
structure ContentModel where
  /-- The name in references. -/
  slug : String
  /-- What users read. -/
  name : String
  /-- The fields. -/
  fields : List Field
  /-- Settings. -/
  settings : ModelSettings
  /-- Entries not known here. -/
  extras : Entries
deriving Repr, BEq

namespace ContentModel

/-- The keys of the fields, in order. -/
def fieldKeys (m : ContentModel) : List String := m.fields.map (·.key)

/-- The first field with a key. -/
def field? (m : ContentModel) (key : String) : Option Field := m.fields.find? (·.key == key)

/-- The fields that are stored. -/
def storedFields (m : ContentModel) : List Field := m.fields.filter (!·.derived)

/-- A short text naming the model. -/
def summary (m : ContentModel) : String :=
  "<Model " ++ m.slug ++ " (" ++ toString m.fields.length ++ " fields)>"

end ContentModel

/-- A reusable group of fields, embedded into models. -/
structure Component where
  /-- The name in references. -/
  slug : String
  /-- What users read. -/
  name : String
  /-- The fields. -/
  fields : List Field
  /-- Entries not known here. -/
  extras : Entries
deriving Repr, BEq

namespace Component

/-- The fields that are stored. -/
def storedFields (c : Component) : List Field := c.fields.filter (!·.derived)

/-- A short text naming the component. -/
def summary (c : Component) : String :=
  "<Component " ++ c.slug ++ " (" ++ toString c.fields.length ++ " fields)>"

end Component

end ContentSchema
