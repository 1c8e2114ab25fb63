import ContentSchema.Text.Blank
import ContentSchema.Text.Digit

/-!
# Switches of a command line

Arguments that begin with a dash switch something on or give a value.  A long spelling may be cut
short as long as it stays unique, and takes a value behind `=` or in the next argument.  Short
spellings may share one dash, where the last one may take the rest as its value.  Other arguments
are operands.
-/

namespace ContentSchema

/-- A switch. -/
structure Switch (ι : Type) where
  /-- What it is about. -/
  key : ι
  /-- How it may be spelt. -/
  spellings : List String
  /-- Whether it takes a value. -/
  takesValue : Bool

/-- What an argument is. -/
inductive Argument (ι : Type) where
  /-- No switch. -/
  | operand
  /-- One switch, with the value behind `=`. -/
  | switch (s : Switch ι) (value : Option (List Char))
  /-- A switch in its short spelling, with what follows it behind the same dash. -/
  | shared (s : Switch ι) (behind : List Char)
  /-- A switch that nobody knows. -/
  | unknown
  /-- The start of several spellings. -/
  | ambiguous

/-- What happens along a command line. -/
inductive Event (ι : Type) where
  /-- A switch is used. -/
  | use (key : ι) (value : Option String)
  /-- An argument is of no use. -/
  | leftover
  /-- A switch is used wrongly. -/
  | fault

namespace Switch

variable {ι : Type}

/-- The switch with a spelling. -/
def find? (switches : List (Switch ι)) (spelling : List Char) : Option (Switch ι) :=
  switches.find? fun s => s.spellings.contains (String.ofList spelling)

/-- The switches with a spelling that begins in a certain way, once for each such spelling. -/
def findAll (switches : List (Switch ι)) (start : List Char) : List (Switch ι) :=
  switches.flatMap fun s => (s.spellings.filter fun t => start.isPrefixOf t.toList).map fun _ => s

/-- Whether a text is a dash and a plain number. -/
def isNegativeNumber (cs : List Char) : Bool :=
  let behind := cs.drop 1
  let whole := behind.takeWhile Text.isDecimal
  match behind.drop whole.length with
  | [] => !whole.isEmpty
  | '.' :: fraction => !fraction.isEmpty && fraction.all Text.isDecimal
  | _ => false

/-- What an argument is. -/
def classify (switches : List (Switch ι)) (arg : List Char) : Argument ι :=
  match arg with
  | '-' :: second :: rest =>
    let name := arg.takeWhile (· ≠ '=')
    let value := if '=' ∈ arg then some (arg.drop (name.length + 1)) else none
    match find? switches arg, find? switches name with
    | some s, _ => .switch s none
    | none, some s => .switch s value
    | none, none =>
      let found : List (Argument ι) :=
        if second = '-' then (findAll switches name).map fun s => .switch s value
        else ((find? switches ['-', second]).map fun s => .shared s rest).toList
      match found with
      | [a] => a
      | [] => if isNegativeNumber arg || ' ' ∈ arg then .operand else .unknown
      | _ => .ambiguous
  | _ => .operand

/-- Whether an argument is the start of several spellings. -/
def isAmbiguous (switches : List (Switch ι)) (arg : String) : Bool :=
  match classify switches arg.toList with
  | .ambiguous => true
  | _ => false

/-- What an argument uses. -/
structure Usage (ι : Type) where
  /-- Switches without a value. -/
  front : List ι
  /-- The last switch and its value; none if the argument ends in characters that are no switches. -/
  last : Option (Switch ι × Option String)

/-- A switch and its value; none if the switch takes no value but has one. -/
def single (s : Switch ι) (value : Option (List Char)) : Option (Usage ι) :=
  if value.isSome && !s.takesValue then none else some ⟨[], some (s, value.map String.ofList)⟩

/-- What the switches use that share a dash, where `s` is the first one and the text follows it; none
if what follows is neither a switch nor a value. -/
def share (switches : List (Switch ι)) (s : Switch ι) : List Char → Option (Usage ι)
  | [] => single s none
  | c :: rest =>
    if s.takesValue then single s (some (c :: rest))
    else if c = '-' then none
    else
      match find? switches ['-', c] with
      | none => some ⟨[s.key], none⟩
      | some next => do
        let usage ← match rest with
          | '=' :: value => single next (some value)
          | _ => share switches next rest
        return { usage with front := s.key :: usage.front }

/-- What happens along arguments that are not ambiguous.  With `toOperand` the way ends at the first
operand, and the arguments from there on are given back; otherwise operands are of no use.  Two dashes
alone count as an operand here and make what follows them useless. -/
def walk (switches : List (Switch ι)) (toOperand : Bool) :
    List String → List (Event ι) × List String
  | [] => ([], [])
  | arg :: rest =>
    if arg = "--" then if toOperand then ([], arg :: rest) else ([.leftover], [])
    else
      let after (events : List (Event ι)) (more : List (Event ι) × List String) :
          List (Event ι) × List String :=
        (events ++ more.1, more.2)
      let use (usage : Option (Usage ι)) : List (Event ι) × List String :=
        match usage with
        | none => ([.fault], [])
        | some ⟨front, none⟩ =>
          after (front.map (.use · none) ++ [.leftover]) (walk switches toOperand rest)
        | some ⟨front, some (last, value)⟩ =>
          let front := front.map (Event.use · none)
          if !last.takesValue || value.isSome then
            after (front ++ [.use last.key value]) (walk switches toOperand rest)
          else
            match rest with
            | [] => ([.fault], [])
            | next :: rest =>
              match classify switches next.toList with
              | .operand =>
                after (front ++ [.use last.key (some next)]) (walk switches toOperand rest)
              | _ => ([.fault], [])
      match classify switches arg.toList with
      | .operand =>
        if toOperand then ([], arg :: rest) else after [.leftover] (walk switches toOperand rest)
      | .unknown => after [.leftover] (walk switches toOperand rest)
      | .ambiguous => ([.fault], [])
      | .switch s value => use (single s value)
      | .shared s behind => use (share switches s behind)

/-- What happens along arguments, and the arguments from the first operand on if the way ends there.
One ambiguous argument in front of `--` spoils all of them. -/
def scan (switches : List (Switch ι)) (toOperand : Bool) (arguments : List String) :
    List (Event ι) × List String :=
  if (arguments.takeWhile (· ≠ "--")).any (isAmbiguous switches) then ([.fault], [])
  else walk switches toOperand arguments

end Switch

end ContentSchema
