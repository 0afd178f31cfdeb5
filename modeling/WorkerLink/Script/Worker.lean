import WorkerLink.Channel.Waits
import WorkerLink.Worker

/-!
# Scripts for a worker

A worker connects to a controller that does as the script says, and both use the connection.
-/

namespace WorkerLink.Script

/-- Where a worker takes its descriptor from. -/
inductive DescriptorSource where
  | text (s : String)
  | environment (value : Option Bytes)
  /-- A descriptor that the caller has read before. -/
  | parsed (s : String)

/-- Why a worker did not connect. -/
inductive ConnectError where
  | io (e : IoError)
  | descriptor (e : DescriptorError)

/-- The descriptor of a source. -/
def DescriptorSource.read : DescriptorSource → Except ConnectError Descriptor
  | .text s => (Worker.descriptorOfText s).mapError .io
  | .environment value => (Worker.descriptorOfEnvironment value).mapError .io
  | .parsed s => (Descriptor.parse s).mapError .descriptor

/-- A step of a worker or of its controller. -/
inductive WorkerStep where
  /-- The worker sends an event. -/
  | emit (p : Payload)
  /-- The worker asks once for the next command. -/
  | next
  /-- The controller writes. -/
  | feed (b : Bytes)
  /-- The controller takes what it has received. -/
  | fetch
  /-- The controller ends its stream and goes on reading. -/
  | finish
  /-- The controller gives up, unless it has done so before. -/
  | close

/-- What a step gives. -/
inductive WorkerReply where
  | ok
  | failed (e : IoError)
  | item (v : Json)
  | pending
  | ended
  | received (b : Bytes) (closed : Bool)

/-- The reply to asking for a command. -/
def WorkerReply.ofProgress : FrameReader.Progress → WorkerReply
  | .item v => .item v
  | .failed e => .failed e
  | .ended => .ended
  | .arrived | .pending => .pending

/-- One step. -/
def WorkerStep.run (w : Worker) (l : Link) : WorkerStep → WorkerReply × Worker × Link
  | .emit p =>
    match w.emit p l with
    | (.ok (), w, l) => (.ok, w, l)
    | (.error e, w, l) => (.failed e, w, l)
  | .next => let (found, w, l) := w.next l; (.ofProgress found, w, l)
  | .feed b =>
    match l.outbound.write b with
    | .ok outbound => (.ok, w, { l with outbound })
    | .error code => (.failed (.os code), w, l)
  | .fetch =>
    (.received l.inbound.unread l.inbound.ended, w,
      { l with inbound := l.inbound.receiveAll.2 })
  | .finish => (.ok, w, { l with outbound := l.outbound.finish .finished })
  | .close => (.ok, w, if l.inbound.abandoned then l else l.release)

/-- Runs steps on a connection. -/
def runWorker (w : Worker) (l : Link) : List WorkerStep → List WorkerReply
  | [] => []
  | s :: rest =>
    let (reply, w, l) := s.run w l
    reply :: runWorker w l rest

/-- Connects a worker while a controller listens at an address, or nobody does, and runs steps. The
scope of an address does not matter for reaching it. -/
def connectWorker (m : Machine) (listening : Option (IpAddress × UInt16))
    (source : DescriptorSource) (limit : Nat) (steps : List WorkerStep) :
    Except ConnectError (List WorkerReply) := do
  let d ← source.read
  match m.connectFault? d.addr with
  | some code => .error (.io (.os code))
  | none =>
    if listening ≠ some (d.addr.ip, d.addr.port) then .error (.io (.os Errno.connectionRefused))
    else .ok (runWorker (.ofLimit limit) (Channel.clientSend {} (Worker.greeting d)) steps)

end WorkerLink.Script
