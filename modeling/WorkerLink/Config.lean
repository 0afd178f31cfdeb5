import WorkerLink.Frame.Codec
import WorkerLink.SessionId
import WorkerLink.Address.Socket

/-!
# Configuration of a channel
-/

namespace WorkerLink

/-- Who receives the lines of a worker's console. -/
inductive ConsoleKind where
  /-- Every line goes to the log. -/
  | logging
  /-- Every line is kept as it is. -/
  | recording
  deriving DecidableEq, Repr

/-- What a channel is opened with. -/
structure Config where
  forkId : UInt32 := 1
  bindAddress : IpAddress := .localhost
  /-- The token to expect; a random one if none is given. -/
  session : Option SessionId := none
  frameLimit : Nat := Codec.defaultLimit
  console : ConsoleKind := .logging

/-- The threads that serve connections. -/
structure IoThreads where
  count : Nat
  name : String
  deriving DecidableEq, Repr

/-- Threads for connections: at least one. -/
def IoThreads.ofCount (n : Nat) : IoThreads := ⟨max n 1, "forklink-io"⟩

end WorkerLink
