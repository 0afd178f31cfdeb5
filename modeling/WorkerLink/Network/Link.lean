import WorkerLink.Network.Stream

/-!
# Connections between clients and a channel

A link is a pair of streams. Either side may end its own stream and go on reading, or give up
both; a side that gives up with bytes left unread ends its stream abruptly, even if it had ended
in order before.
-/

namespace WorkerLink

/-- A connection. -/
structure Link where
  /-- From the client to the channel. -/
  inbound : Stream := {}
  /-- From the channel to the client. -/
  outbound : Stream := {}
  deriving DecidableEq, Repr

namespace Link

/-- How a side that gives up ends its stream, by what it leaves unread. -/
def endingFor (unread : Bytes) : Ending := if unread = [] then .finished else .reset

/-- The client ends its stream and goes on reading. -/
def clientFinish (l : Link) : Link := { l with inbound := l.inbound.finish .finished }

/-- The client gives up. -/
def clientLeave (l : Link) : Link :=
  { inbound := l.inbound.finish (endingFor l.outbound.unread), outbound := l.outbound.abandon }

/-- The client gives up abruptly. -/
def clientReset (l : Link) : Link :=
  { inbound := l.inbound.finish .reset, outbound := l.outbound.abandon }

/-- The channel shuts both streams down. -/
def shutDown (l : Link) : Link :=
  { inbound := l.inbound.abandon, outbound := l.outbound.finish .finished }

/-- The channel gives up. -/
def release (l : Link) : Link :=
  { inbound := l.inbound.abandon, outbound := l.outbound.finish (endingFor l.inbound.unread) }

end Link

end WorkerLink
