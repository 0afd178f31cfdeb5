/-!
# Counting the relays that still run

The event consumer and the console relay each hold a permit while they run. The permit of the
consumer is reserved as soon as an event handler is there, and later handed to the consumer or
given back, whichever comes first.
-/

namespace WorkerLink

/-- The count of permits, with the reservation for the event consumer. -/
structure Countdown where
  /-- The permits handed out and not given back, and the reservation if it is held. -/
  pending : Nat := 0
  /-- Whether a permit is reserved. -/
  held : Bool := false
  /-- How often the reserved permit was handed out. -/
  handouts : Nat := 0
  deriving DecidableEq, Repr

namespace Countdown

/-- Hands out a permit. -/
def acquire (c : Countdown) : Countdown := { c with pending := c.pending + 1 }

/-- Takes a permit back. -/
def release (c : Countdown) : Countdown := { c with pending := c.pending - 1 }

/-- Reserves a permit, unless one is reserved. -/
def reserve (c : Countdown) : Countdown :=
  if c.held then c else { c with pending := c.pending + 1, held := true }

/-- Hands out the reserved permit, if there is one. -/
def take (c : Countdown) : Bool × Countdown :=
  if c.held then (true, { c with held := false, handouts := c.handouts + 1 }) else (false, c)

/-- Hands out the reserved permit and takes it back at once. -/
def discard (c : Countdown) : Countdown :=
  match c.take with
  | (true, c) => c.release
  | (false, c) => c

end Countdown

/-- How far a task has come. -/
inductive Phase where
  | absent
  | running
  | stopped
  deriving DecidableEq, Repr

/-- A task that moves traffic. -/
structure Task where
  phase : Phase := .absent
  /-- Whether the channel knows the task, so that it can be aborted. -/
  registered : Bool := false
  /-- Whether the task was told to stop; it does at its next step. -/
  aborted : Bool := false
  deriving DecidableEq, Repr

namespace Task

def isRunning (t : Task) : Bool := t.phase = .running

def start (t : Task) : Task := { t with phase := .running }

def stop (t : Task) : Task := { t with phase := .stopped }

def register (t : Task) : Task := { t with registered := true }

/-- Tells a registered task to stop. -/
def abort (t : Task) : Task := { t with aborted := t.aborted || t.registered }

end Task

end WorkerLink
