import ContentSchema.Reading.Issue

/-!
# Checked results

The outcome of reading a value: what was read, or all issues that stood in the way.  Reading two
parts reports the issues of both, the first part's first (`Checked.issues_seq`).
-/

namespace ContentSchema

/-- What was read, or the issues found. -/
inductive Checked (α : Type) where
  /-- The value is accepted. -/
  | accepted (a : α)
  /-- The value is rejected for these issues. -/
  | rejected (issues : List Issue)
deriving Repr

namespace Checked

variable {α β : Type}

/-- Applies a function to what was read. -/
def map (f : α → β) : Checked α → Checked β
  | accepted a => accepted (f a)
  | rejected issues => rejected issues

/-- Reads two parts and reports the issues of both. -/
def seq : Checked (α → β) → Checked α → Checked β
  | accepted f, x => x.map f
  | rejected issues, accepted _ => rejected issues
  | rejected issues, rejected more => rejected (issues ++ more)

/-- Goes on with what was read, if it is accepted. -/
def andThen (x : Checked α) (next : α → Checked β) : Checked β :=
  match x with
  | accepted a => next a
  | rejected issues => rejected issues

instance : Applicative Checked where
  pure := accepted
  map := map
  seq f x := seq f (x ())

/-- Rejects with a single fault at the value itself. -/
def fail (fault : Fault) : Checked α := rejected [⟨[], fault⟩]

/-- The issues found; none if the value is accepted. -/
def issues : Checked α → List Issue
  | accepted _ => []
  | rejected issues => issues

/-- What was read, if the value is accepted. -/
def toOption : Checked α → Option α
  | accepted a => some a
  | rejected _ => none

/-- The outcome seen from one level further out. -/
def within (segment : String) : Checked α → Checked α
  | accepted a => accepted a
  | rejected issues => rejected (issues.map (·.within segment))

/-- Adds a test that depends on the fault it finds. -/
def ensure (x : Checked α) (test : α → Option Fault) : Checked α :=
  x.andThen fun a => match test a with
    | some fault => fail fault
    | none => accepted a

/-- Turns the outcome into one that stops at errors. -/
def toExcept : Checked α → Except (List Issue) α
  | accepted a => .ok a
  | rejected issues => .error issues

theorem issues_seq (f : Checked (α → β)) (x : Checked α) :
    (f <*> x).issues = f.issues ++ x.issues := by
  cases f <;> cases x <;> simp [Seq.seq, seq, map, issues]

/-- Reads each item with the name of its place. -/
def traverse (read : Nat → α → Checked β) : Nat → List α → Checked (List β)
  | _, [] => accepted []
  | i, a :: as =>
    List.cons <$> (read i a).within (toString i) <*> traverse read (i + 1) as

end Checked

end ContentSchema
