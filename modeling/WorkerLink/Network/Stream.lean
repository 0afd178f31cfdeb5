import WorkerLink.OsError
import WorkerLink.Bytes

/-!
# One direction of a connection

Bytes written on one side wait until the other side takes them. What was written stays readable
after the writing side has ended, whichever way it ended.
-/

namespace WorkerLink

/-- How the writing side of a stream ends. -/
inductive Ending where
  /-- In order: the reader sees the end behind the last byte. -/
  | finished
  /-- Abruptly: the reader sees an error behind the last byte, and then the end. -/
  | reset
  deriving DecidableEq, Repr

/-- One direction of a connection. -/
structure Stream where
  /-- The bytes that the reading side has taken. -/
  taken : Bytes := []
  /-- The bytes on their way. -/
  unread : Bytes := []
  /-- Whether the writing side has ended. -/
  ended : Bool := false
  /-- Whether an error is due behind the last byte. A reader sees it once. -/
  broken : Bool := false
  /-- Whether the reading side is gone, so that writing fails. -/
  abandoned : Bool := false
  deriving DecidableEq, Repr

namespace Stream

/-- All bytes ever written. -/
def written (s : Stream) : Bytes := s.taken ++ s.unread

/-- Whether bytes can still be written. -/
def isWritable (s : Stream) : Bool := !s.ended && !s.abandoned

/-- Writes bytes. -/
def write (s : Stream) (b : Bytes) : Except Errno Stream :=
  if s.isWritable then .ok { s with unread := s.unread ++ b } else .error Errno.brokenPipe

/-- Ends the writing side. A side that has ended in order can still break off. -/
def finish (s : Stream) : Ending → Stream
  | .finished => { s with ended := true }
  | .reset => { s with ended := true, broken := true }

/-- Drops the reading side. -/
def abandon (s : Stream) : Stream := { s with abandoned := true }

/-- What a reader finds. -/
inductive Received where
  | data (b : Bytes)
  | finished
  | failed (code : Errno)
  /-- Nothing yet. -/
  | nothing
  deriving DecidableEq, Repr

/-- Takes at most `limit` bytes. Behind the last byte comes the error, if one is due, and then the
end, which a reader that was shut down finds as well. -/
def receive (s : Stream) (limit : Nat) : Received × Stream :=
  let b := s.unread.take limit
  if b ≠ [] then (.data b, { s with taken := s.taken ++ b, unread := s.unread.drop limit })
  else if s.broken then (.failed Errno.connectionReset, { s with broken := false })
  else if s.ended || s.abandoned then (.finished, s)
  else (.nothing, s)

/-- Takes every byte there is. -/
def receiveAll (s : Stream) : Received × Stream := s.receive s.unread.length

end Stream

end WorkerLink
