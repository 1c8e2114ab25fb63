import ContentSchema.Value.Display

/-!
# Issues

What can be wrong with a value of unknown shape, as causes, and the one place that words them.  An
issue is a fault together with the path at which it is found.
-/

namespace ContentSchema

/-- What is wrong with a value. -/
inductive Fault where
  /-- A key that must be there is not. -/
  | missing
  /-- A key that is not known and not allowed. -/
  | unknownKey
  /-- No text. -/
  | notText
  /-- A text that must not be empty is. -/
  | emptyText
  /-- A text that is no slug. -/
  | notSlug
  /-- Neither a truth value nor something that could spell one. -/
  | notBool
  /-- A text or number that spells no truth value. -/
  | unreadableBool
  /-- Neither a whole number nor something that could spell one. -/
  | notInt
  /-- A text that spells no whole number. -/
  | unreadableInt
  /-- A double between two whole numbers. -/
  | fractionalInt
  /-- A text or double too large for a whole number. -/
  | oversizedInt
  /-- An infinite double, or one that is no number. -/
  | notFinite
  /-- A whole number below the least one allowed. -/
  | tooSmall (bound : Int)
  /-- A whole number above the greatest one allowed. -/
  | tooLarge (bound : Int)
  /-- No number. -/
  | notNumber
  /-- A text that spells no number. -/
  | unreadableNumber
  /-- No list. -/
  | notList
  /-- A list that must not be empty is. -/
  | emptyList
  /-- No object with free keys. -/
  | notObject
  /-- No object of the named record. -/
  | notRecord (record : String)
  /-- No object that could name its own type. -/
  | notTagged
  /-- An object that does not name its type. -/
  | untagged
  /-- An object that names a type not among the expected ones. -/
  | unknownTag (shown : String) (expected : List String)
  /-- None of the listed texts. -/
  | notOneOf (names : List String)
  /-- No hook. -/
  | notHook
  /-- A hook that cannot be imported. -/
  | hookImport (reference reason : String)
  /-- A hook whose module finds a value wrong while it is loaded. -/
  | hookValue (reason : String)
  /-- A hook whose module finds an assertion broken while it is loaded. -/
  | hookAssertion (reason : String)
  /-- A field key that every table uses for itself. -/
  | systemKey (key : String)
  /-- A field key that component tables use for variants. -/
  | variantKey (key : String)
  /-- A field key that an earlier field has. -/
  | duplicateKey (key : String) (first : Nat)
  /-- A field type that needs a configuration which is not there. -/
  | configMissing (type : String)
  /-- A configuration for another field type. -/
  | configMismatch (config type : String)
  /-- No definition at all. -/
  | notDefinition (kind shown : String)
deriving DecidableEq, Repr

/-- Texts in single quotes, with a word before the last one. -/
def alternatives (names : List String) : String :=
  let shown := names.map fun n => "'" ++ n ++ "'"
  match shown.reverse with
  | last :: rest@(_ :: _) => String.intercalate ", " rest.reverse ++ " or " ++ last
  | _ => String.intercalate ", " shown

namespace Fault

/-- Whether the fault breaks a rule about content that is well formed. -/
def breaksRule : Fault → Bool
  | hookImport .. | hookValue _ | systemKey _ | configMissing _ | configMismatch .. => true
  | _ => false

/-- The words for a fault. -/
def message : Fault → String
  | missing => "Field required"
  | unknownKey => "Extra inputs are not permitted"
  | notText => "Input should be a valid string"
  | emptyText => "String should have at least 1 character"
  | notSlug => "String should match pattern '^[a-z][a-z0-9_-]*$'"
  | notBool => "Input should be a valid boolean"
  | unreadableBool => "Input should be a valid boolean, unable to interpret input"
  | notInt => "Input should be a valid integer"
  | unreadableInt => "Input should be a valid integer, unable to parse string as an integer"
  | fractionalInt => "Input should be a valid integer, got a number with a fractional part"
  | oversizedInt => "Unable to parse input string as an integer, exceeded maximum size"
  | notFinite => "Input should be a finite number"
  | tooSmall bound => "Input should be greater than or equal to " ++ toString bound
  | tooLarge bound => "Input should be less than or equal to " ++ toString bound
  | notNumber => "Input should be a valid number"
  | unreadableNumber => "Input should be a valid number, unable to parse string as a number"
  | notList => "Input should be a valid list"
  | emptyList => "List should have at least 1 item after validation, not 0"
  | notObject => "Input should be a valid dictionary"
  | notRecord record => "Input should be a valid dictionary or instance of " ++ record
  | notTagged => "Input should be a valid dictionary or object to extract fields from"
  | untagged => "Unable to extract tag using discriminator 'type'"
  | unknownTag shown expected =>
    "Input tag '" ++ shown ++ "' found using 'type' does not match any of the expected tags: " ++
      String.intercalate ", " (expected.map fun n => "'" ++ n ++ "'")
  | notOneOf names => "Input should be " ++ alternatives names
  | notHook => "Input should be callable"
  | hookImport reference reason => "cannot import hook '" ++ reference ++ "': " ++ reason
  | hookValue reason => reason
  | hookAssertion reason => "Assertion failed, " ++ reason
  | systemKey key => "Field key '" ++ key ++ "' is reserved by the system"
  | variantKey key => "Field key '" ++ key ++ "' is reserved for A/B testing in components"
  | duplicateKey key first =>
    "Field keys must be unique; '" ++ key ++ "' is already declared at fields." ++ toString first
  | configMissing type => type ++ " fields require a config block"
  | configMismatch config type =>
    "config type '" ++ config ++ "' does not match field type '" ++ type ++ "'"
  | notDefinition kind shown => "Expected a " ++ kind ++ " object, got " ++ shown

/-- The words for a fault, with a mark in front of broken rules. -/
def markedMessage (f : Fault) : String :=
  if f.breaksRule then "Value error, " ++ f.message else f.message

end Fault

/-- A fault and where it is found. -/
structure Issue where
  /-- Keys and positions that lead to the fault. -/
  path : List String
  /-- The fault. -/
  fault : Fault
deriving DecidableEq, Repr

namespace Issue

/-- The path of an issue as one text. -/
def pathText (i : Issue) : String := String.intercalate "." i.path

/-- The issue seen from one level further out. -/
def within (segment : String) (i : Issue) : Issue := { i with path := segment :: i.path }

end Issue

end ContentSchema
