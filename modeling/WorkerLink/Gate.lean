/-!
# A gate that opens once

A number of participants arrive, in any order and from anywhere. The arrival that takes the number
of those missing from one to zero is told that it opened the gate; later ones change nothing.
-/

namespace WorkerLink

/-- A gate with the number of arrivals still missing. -/
structure Gate where
  remaining : Nat
  deriving DecidableEq, Repr

namespace Gate

/-- A gate for a number of participants, of which there is at least one. -/
def ofParticipants (n : Nat) : Except String Gate :=
  if n = 0 then .error "a gate needs at least one participant" else .ok ⟨n⟩

def isOpen (g : Gate) : Bool := g.remaining = 0

/-- What an arrival finds. -/
inductive Arrival where
  /-- Others are still missing. -/
  | waited
  /-- It was the last one. -/
  | opened
  /-- The gate was open before. -/
  | surplus
  deriving DecidableEq, Repr

/-- One arrival. -/
def arrive (g : Gate) : Arrival × Gate :=
  match g.remaining with
  | 0 => (.surplus, g)
  | 1 => (.opened, ⟨0⟩)
  | n + 2 => (.waited, ⟨n + 1⟩)

/-- The warning about an arrival at an open gate. -/
def surplusWarning : String := "Readiness gate already open, ignoring extra arrival"

/-- The number of arrivals out of `n` that opened the gate, and the gate after them. -/
def arriveMany : Nat → Gate → Nat × Gate
  | 0, g => (0, g)
  | n + 1, g =>
    let (found, g) := g.arrive
    let (opened, g) := arriveMany n g
    (opened + if found = .opened then 1 else 0, g)

end Gate

end WorkerLink
