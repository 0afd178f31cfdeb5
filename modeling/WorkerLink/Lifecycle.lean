/-!
# The lifecycle of a channel
-/

namespace WorkerLink

/-- How far a channel has come. -/
inductive Lifecycle where
  | created
  | listening
  | accepting
  | accepted
  | authenticating
  /-- The worker is verified; a registration is missing. -/
  | authenticated
  /-- Both streams are bound to the verified worker. -/
  | ready
  /-- Accepting failed, or the worker could not be verified. -/
  | failed
  | closed
  deriving DecidableEq, Repr

namespace Lifecycle

/-- Every state, in order. -/
def all : List Lifecycle :=
  [.created, .listening, .accepting, .accepted, .authenticating, .authenticated, .ready, .failed,
    .closed]

/-- The place of a state in the order. -/
def number : Lifecycle → Nat
  | .created => 0
  | .listening => 1
  | .accepting => 2
  | .accepted => 3
  | .authenticating => 4
  | .authenticated => 5
  | .ready => 6
  | .failed => 7
  | .closed => 8

def name : Lifecycle → String
  | .created => "Created"
  | .listening => "Listening"
  | .accepting => "Accepting"
  | .accepted => "Accepted"
  | .authenticating => "Authenticating"
  | .authenticated => "Authenticated"
  | .ready => "Ready"
  | .failed => "Failed"
  | .closed => "Closed"

/-- Whether a channel goes no further than being closed. -/
def isTerminal : Lifecycle → Bool
  | .failed | .closed => true
  | _ => false

/-- Moves on to a state. A closed channel stays closed, and a failed one can only be closed. -/
def advance (current next : Lifecycle) : Lifecycle :=
  match current, next with
  | .closed, _ => .closed
  | .failed, .closed => .closed
  | .failed, _ => .failed
  | _, next => next

end Lifecycle

end WorkerLink
