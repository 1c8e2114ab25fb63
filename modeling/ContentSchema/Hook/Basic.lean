import ContentSchema.Failure
import ContentSchema.Schema.Size

/-!
# Hooks

Functions of a user that take part in a run: mappers, which turn a stored item into a definition,
and loaders, which are called with nothing and give all definitions.
-/

namespace ContentSchema

/-- How a hook fails. -/
inductive HookFault where
  /-- With an error of its own, which has a name and a text. -/
  | raised (kind reason : String)
  /-- With a failure of the run. -/
  | stopped (failure : Failure)
  /-- It gives up the run, by ending the program or by letting the run be cancelled while it
  waits. -/
  | abandoned (kind reason : String)

/-- A function of a user. -/
structure Hook where
  /-- Its name. -/
  name : String
  /-- What it does with an item, or with nothing. -/
  call : Option Value → Except HookFault Value

namespace Hook

/-- The failure by an error of a hook's own, which names the part of the configuration and the item
that is `shown`, unless the item cannot be written. -/
def failure (role : String) (shown : Outcome Value) (kind reason : String) : Failure :=
  match shown with
  | .ok item => if item.holdsOversized then .slip .oversizedNumber else .hook role item kind reason
  | .error unshown => unshown

/-- Calls a hook.  An error of the hook's own becomes a failure of the run; a failure of the run
passes through, and so does what gives up the run. -/
def run (h : Hook) (role : String) (shown : Outcome Value) (input : Option Value) : Outcome Value :=
  (h.call input).mapError fun
    | .raised kind reason => failure role shown kind reason
    | .stopped failure => failure
    | .abandoned kind reason => .abandoned kind reason

end Hook

end ContentSchema
