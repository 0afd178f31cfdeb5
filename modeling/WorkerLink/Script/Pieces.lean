import WorkerLink.CommandQueue
import WorkerLink.Frame.Codec
import WorkerLink.Gate
import WorkerLink.Logging.Record

/-!
# Scripts for single parts

A script is a list of steps; running it gives what each step shows. These scripts exercise a codec
with its buffer, a command queue and a gate.
-/

namespace WorkerLink.Script

/-! ## Codec -/

/-- A step on a codec with one buffer. -/
inductive CodecStep where
  | feed (b : Bytes)
  | encode (p : Payload)
  | decode
  | decodeEnd

/-- What a step on a codec gives. -/
inductive CodecReply where
  | fed
  /-- The frame that was appended to the buffer. -/
  | encoded (frame : Bytes)
  | decoded (v : Option Json)
  | failed (e : IoError)

/-- The reply of an attempt to decode. -/
def CodecReply.ofDecoded : Except IoError (Option Json) → CodecReply
  | .ok v => .decoded v
  | .error e => .failed e

/-- One step on a codec. -/
def CodecStep.run (c : Codec) (d : Decoder) : CodecStep → CodecReply × Decoder
  | .feed b => (.fed, d.feed b)
  | .encode p =>
    match d.append c p.serialize with
    | (.ok frame, d) => (.encoded frame, d)
    | (.error e, d) => (.failed e, d)
  | .decode => let (found, d) := d.decode c; (.ofDecoded found, d)
  | .decodeEnd => let (found, d) := d.decodeEnd c; (.ofDecoded found, d)

/-- Runs a script on a codec: the reply and the number of bytes left over after each step. -/
def runCodec (c : Codec) (steps : List CodecStep) : List (CodecReply × Nat) :=
  go {} steps
where
  /-- Runs the steps from a given buffer on. -/
  go (d : Decoder) : List CodecStep → List (CodecReply × Nat)
    | [] => []
    | s :: rest =>
      let (reply, d) := s.run c d
      (reply, d.buffer.length) :: go d rest

/-! ## Command queue -/

/-- A step on a command queue. -/
inductive QueueStep where
  | send (sender : Nat) (v : Json)
  | cloneSender (sender : Nat)
  | dropSender (sender : Nat)
  | dropQueue
  | next

/-- What a step on a command queue gives. -/
inductive QueueReply where
  | sent
  | cloned (sender : Nat)
  | dropped
  | taken (found : CommandQueue.Next Json)
  | refused (e : IoError)
  | noSender
  | noQueue

/-- One step on a command queue. -/
def QueueStep.run (q : CommandQueue Json) : QueueStep → QueueReply × CommandQueue Json
  | .send sender v =>
    if q.hasSender sender then
      match q.send v with
      | .ok q => (.sent, q)
      | .error e => (.refused e, q)
    else (.noSender, q)
  | .cloneSender sender =>
    if q.hasSender sender then (.cloned q.senders.length, q.cloneSender) else (.noSender, q)
  | .dropSender sender =>
    if q.hasSender sender then (.dropped, q.dropSender sender) else (.noSender, q)
  | .dropQueue => if q.isOpen then (.dropped, q.close) else (.noQueue, q)
  | .next =>
    if q.isOpen then
      let (found, q) := q.next
      (.taken found, q)
    else (.noQueue, q)

/-- Runs a script on a new command queue. -/
def runQueue (steps : List QueueStep) : List QueueReply :=
  go {} steps
where
  /-- Runs the steps from a given queue on. -/
  go (q : CommandQueue Json) : List QueueStep → List QueueReply
    | [] => []
    | s :: rest =>
      let (reply, q) := s.run q
      reply :: go q rest

/-! ## Gate -/

/-- An arrival at a gate. -/
inductive GateStep where
  | arrive
  /-- With an action to run if this arrival opens the gate. -/
  | arriveThen
  deriving DecidableEq, Repr

/-- What an arrival shows. -/
structure GateReply where
  opened : Bool
  /-- How often the action ran. -/
  ran : Nat
  after : Gate
  log : List LogRecord

/-- One arrival. -/
def GateStep.run (g : Gate) (s : GateStep) : GateReply :=
  let (found, after) := g.arrive
  let opened : Bool := found = .opened
  { opened
    ran := if opened && s = .arriveThen then 1 else 0
    after
    log := if found = .surplus then [.warn Gate.surplusWarning] else [] }

/-- Runs arrivals at a gate. -/
def runGate (g : Gate) : List GateStep → List GateReply
  | [] => []
  | s :: rest =>
    let reply := s.run g
    reply :: runGate reply.after rest

end WorkerLink.Script
