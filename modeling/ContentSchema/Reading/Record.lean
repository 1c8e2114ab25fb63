import ContentSchema.Reading.Scalar

/-!
# Reading records

Objects with known keys.  A key has two spellings, of which the primary one is looked up first; a spelling
that is not used for any key is an unknown entry, which definitions keep and configurations refuse.
-/

namespace ContentSchema

/-- A key of a record in its two spellings. -/
structure Key where
  /-- The spelling looked up first. -/
  primary : String
  /-- The other spelling. -/
  other : String
deriving DecidableEq, Repr

namespace Key

/-- A key with one spelling. -/
def plain (name : String) : Key := ⟨name, name⟩

/-- The spelling under which an object has the key, and its value. -/
def find? (k : Key) (entries : Entries) : Option (String × Value) :=
  match entries.find? k.primary with
  | some v => some (k.primary, v)
  | none => (entries.find? k.other).map fun v => (k.other, v)

/-- Whether an object has the key under this very spelling. -/
def uses (k : Key) (entries : Entries) (spelling : String) : Bool :=
  (k.find? entries).any fun found => found.1 == spelling

end Key

/-- The entries of an object that are not taken by any of the keys. -/
def Entries.unknown (keys : List Key) (entries : Entries) : Entries :=
  entries.filter fun e => !keys.any fun k => k.uses entries e.1

namespace Record

variable {α : Type}

/-- Reads the value of a key that must be there. -/
def required (k : Key) (read : Reader α) (entries : Entries) : Checked α :=
  match k.find? entries with
  | some (spelling, v) => (read v).within spelling
  | none => .rejected [⟨[k.primary], .missing⟩]

/-- Reads the value of a key, with a value for the case that it is missing. -/
def defaulted (k : Key) (default : α) (read : Reader α) (entries : Entries) : Checked α :=
  match k.find? entries with
  | some (spelling, v) => (read v).within spelling
  | none => .accepted default

/-- Reads the value of a key that may be missing or nothing. -/
def optionally (k : Key) (read : Reader α) (entries : Entries) : Checked (Option α) :=
  defaulted k none (Reader.nullable read) entries

/-- Finds the unknown entries, which are allowed and kept. -/
def keepUnknown (keys : List Key) (entries : Entries) : Checked Entries :=
  .accepted (entries.unknown keys)

/-- Reports every unknown entry. -/
def refuseUnknown (keys : List Key) (entries : Entries) : Checked Unit :=
  match entries.unknown keys with
  | [] => .accepted ()
  | unknown => .rejected (unknown.map fun e => ⟨[e.1], .unknownKey⟩)

/-- Reads the named record out of an object. -/
def object (record : String) (read : Entries → Checked α) : Reader α
  | .object entries => read entries
  | _ => .fail (.notRecord record)

/-- Reads the key that names the type of a record: it may be missing, but must have the one value
that it can have. -/
def literal (k : Key) (name : String) (entries : Entries) : Checked Unit :=
  defaulted k () (Reader.oneOf [()] fun _ => name) entries

end Record

end ContentSchema
