/-!
# The room of a receive buffer

Received bytes lie in a block of memory, behind those that were consumed before. What fits behind
them bounds how much is taken from a stream at once, so the block decides how many bytes a reader
leaves there. Where more room is needed the bytes move to the front of the block, if they are no
more than what was consumed, and otherwise the block at least doubles.
-/

namespace WorkerLink

/-- The size of a new block, unless more is needed. -/
def Room.initialSize : Nat := 8192

/-- The room of a receive buffer. -/
structure Room where
  /-- The bytes in the block. -/
  size : Nat := Room.initialSize
  /-- The bytes at its front that were consumed. -/
  consumed : Nat := 0
  /-- The bytes behind them that are held. -/
  held : Nat := 0
  deriving DecidableEq, Repr

namespace Room

/-- How many bytes fit behind those that are held. -/
def free (r : Room) : Nat := r.size - r.consumed - r.held

/-- Adds received bytes. -/
def fill (r : Room) (n : Nat) : Room := { r with held := r.held + n }

/-- Consumes bytes from the front. -/
def consume (r : Room) (n : Nat) : Room :=
  { r with consumed := r.consumed + n, held := r.held - n }

/-- Makes room for more bytes. -/
def reserve (r : Room) (more : Nat) : Room :=
  if more ≤ r.free then r
  else if r.held + more ≤ r.size ∧ r.held ≤ r.consumed then { r with consumed := 0 }
  else { r with size := max (2 * r.size) (r.consumed + r.held + more) }

/-- Makes room for more bytes while others still look at the block: it cannot be used again then, so
the bytes move to a new one. -/
def reserveShared (r : Room) (more : Nat) : Room :=
  if more ≤ r.free then r
  else { r with size := max initialSize (r.held + more), consumed := 0 }

/-- There is room for what was asked for. -/
theorem le_free_reserve (r : Room) (more : Nat) : more ≤ (r.reserve more).free := by
  unfold reserve
  split
  · assumption
  · split <;> simp only [free] <;> omega

/-- There is room for what was asked for, in a new block as well. -/
theorem le_free_reserveShared (r : Room) (more : Nat) : more ≤ (r.reserveShared more).free := by
  unfold reserveShared
  split
  · assumption
  · simp only [free]
    omega

end Room

end WorkerLink
