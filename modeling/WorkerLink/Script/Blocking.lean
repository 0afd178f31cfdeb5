import WorkerLink.Channel.Waits

/-!
# Scripts for an owner that blocks

An owner without tasks of its own waits for its worker by blocking. What it waits for comes from the
threads that serve connections; if these are stopped the wait ends with an error.
-/

namespace WorkerLink.Script

/-- What happens while the owner waits. -/
structure BlockingScript where
  /-- What the client writes, piece by piece. -/
  chunks : List Bytes
  /-- Whether the client ends its stream then. -/
  finish : Bool := false
  /-- Whether the channel is closed before the wait, and no client connects. -/
  closeFirst : Bool := false
  /-- Whether the threads are stopped before the wait. -/
  stopThreads : Bool := false

/-- What the owner sees. A wait that would last forever gives nothing. -/
structure BlockingShown where
  result : Option (Except ChannelError Authentication)
  again : Option (Except ChannelError Authentication)
  close : Except ChannelError Unit
  /-- Whether the client sees the end of its connection, if there is a client. -/
  clientSeesEnd : Option Bool
  state : Lifecycle
  /-- Whether a connection was accepted. -/
  accepted : Bool

/-- What the client does. -/
def BlockingScript.actions (s : BlockingScript) : List Action :=
  .join :: s.chunks.map (.send 0) ++ if s.finish then [.finish 0] else []

/-- Runs a script on a channel that was just opened. -/
def BlockingScript.run (s : BlockingScript) (ch : Channel) : BlockingShown :=
  let ch := (ch.perform .connect).2.settle
  let ch := if s.closeFirst then (ch.perform .close).2.settle else (ch.run s.actions).settle
  let accepted := ch.slot.isSome
  let ch := if s.stopThreads then ch.stopTasks else ch
  let result := ch.complete?
  let again := ch.complete?
  let (close, ch) := ch.perform .close
  let ch := ch.settle
  { result, again, close, accepted
    clientSeesEnd := if s.closeFirst then none else some (ch.link 0).outbound.ended
    state := ch.state }

end WorkerLink.Script
