import WorkerLink.IoError

/-!
# Command queues

A queue between those who send commands and the one stream that takes them. Senders are numbered
as they come to exist; a queue is exhausted once all of them are gone and nothing is left in it.
-/

namespace WorkerLink

/-- A queue of commands. -/
structure CommandQueue (α : Type) where
  /-- The commands not yet taken, the next one first. -/
  items : List α := []
  /-- For every sender there has been, whether it is still there. -/
  senders : List Bool := [true]
  /-- Whether the taking side is still there. -/
  isOpen : Bool := true

namespace CommandQueue

variable {α : Type}

/-- What asking for the next command gives. -/
inductive Next (α : Type) where
  | item (a : α)
  /-- None is there, but a sender is. -/
  | pending
  /-- None is there, and none will come. -/
  | exhausted

/-- Whether a sender is there. -/
def hasSender (q : CommandQueue α) (sender : Nat) : Bool := q.senders.getD sender false

/-- Sends a command; the queue has to be there. -/
def send (q : CommandQueue α) (a : α) : Except IoError (CommandQueue α) :=
  if q.isOpen then .ok { q with items := q.items ++ [a] } else .error .queueClosed

/-- Makes a sender; its number is the number of senders there were. -/
def cloneSender (q : CommandQueue α) : CommandQueue α := { q with senders := q.senders ++ [true] }

/-- Drops a sender. -/
def dropSender (q : CommandQueue α) (sender : Nat) : CommandQueue α :=
  { q with senders := q.senders.set sender false }

/-- Drops the taking side with all that is in the queue. -/
def close (q : CommandQueue α) : CommandQueue α := { q with isOpen := false, items := [] }

/-- Takes the next command. -/
def next (q : CommandQueue α) : Next α × CommandQueue α :=
  match q.items with
  | a :: rest => (.item a, { q with items := rest })
  | [] => (if q.senders.any id then .pending else .exhausted, q)

end CommandQueue

end WorkerLink
