import WorkerLink.Descriptor.Basic
import WorkerLink.Frame.Reader
import WorkerLink.Network.Link

/-!
# The worker's side

A worker learns its descriptor from its launcher, connects, sends the token without any delimiter,
and from then on sends events and receives commands as frames. A value that refuses to be written or
is too long leaves no byte on the connection. A frame that the connection does not take is kept
for the next attempt.
-/

namespace WorkerLink

/-- A worker that has connected. -/
structure Worker where
  codec : Codec
  reader : FrameReader := {}
  /-- Frames that the connection has not taken yet. -/
  unsent : Bytes := []

namespace Worker

/-- The descriptor that a text holds. -/
def descriptorOfText (s : String) : Except IoError Descriptor :=
  (Descriptor.parse s).mapError .descriptor

/-- The descriptor that the environment holds, given the value of the variable. -/
def descriptorOfEnvironment (value : Option Bytes) : Except IoError Descriptor :=
  match value with
  | none => .error (.environment .absent)
  | some b =>
    match Utf8.toString? b with
    | none => .error (.environment (.notText b))
    | some s => descriptorOfText s

/-- A worker that has just connected, with a limit for frames of both directions. -/
def ofLimit (limit : Nat) : Worker := { codec := { limit } }

/-- What a worker sends first. -/
def greeting (d : Descriptor) : Bytes := d.session.bytes

/-- As many unsent bytes have to be sent before another event is looked at. -/
def unsentLimit : Nat := 8192

/-- Sends what is not sent yet. -/
def flush (w : Worker) (l : Link) : Except IoError Unit × Worker × Link :=
  match l.inbound.write w.unsent with
  | .ok inbound => (.ok (), { w with unsent := [] }, { l with inbound })
  | .error code => (.error (.os code), w, l)

/-- Sends an event once there is room for it. -/
def send (w : Worker) (p : Payload) (l : Link) : Except IoError Unit × Worker × Link :=
  match w.codec.encode p with
  | .error e => (.error e, w, l)
  | .ok frame => { w with unsent := w.unsent ++ frame }.flush l

/-- Sends an event. -/
def emit (w : Worker) (p : Payload) (l : Link) : Except IoError Unit × Worker × Link :=
  if w.unsent.length < unsentLimit then w.send p l
  else match w.flush l with
    | (.ok (), w, l) => w.send p l
    | failed => failed

/-- Asks once for the next command. -/
def next (w : Worker) (l : Link) : FrameReader.Progress × Worker × Link :=
  let (found, reader, outbound) := w.reader.poll w.codec l.outbound
  (found, { w with reader }, { l with outbound })

end Worker

end WorkerLink
