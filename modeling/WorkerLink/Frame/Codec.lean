import WorkerLink.IoError
import WorkerLink.Json.Shape

/-!
# Frames

A value travels as its compact JSON text behind the length of that text in four bytes, the most
significant first. `Codec.encode` makes the frame of a value; `Decoder.decode` takes the next frame
from a buffer. The head of a frame is taken as soon as it is there and announces a text within
the limit; too long a head stays, so that nothing behind it is ever taken for a frame. A frame
whose text cannot be read is taken all the same.
-/

namespace WorkerLink

/-- What is sent: a value, or one that refuses to be written. -/
inductive Payload where
  | value (v : Json)
  | refusing (reason : String)

/-- The text of what is sent. -/
def Payload.serialize : Payload → Except IoError Bytes
  | .value v => .ok v.bytes
  | .refusing reason => .error (.unwritable reason)

/-- How frames are made and read: what they carry, and how long a text may be. -/
structure Codec where
  shape : Json.Shape := .any
  limit : Nat

namespace Codec

/-- The limit used unless another one is given: eight mebibytes. -/
def defaultLimit : Nat := 8 * 1024 * 1024

/-- The longest text in a frame; no limit goes beyond what a head can announce. -/
def longest (c : Codec) : Nat := min c.limit 0xFFFFFFFF

/-- The frame of a text. -/
def frame (text : Bytes) : Bytes := Bytes.ofWord text.length ++ text

/-- The frame of a text within the limit. -/
def wrap (c : Codec) (text : Bytes) : Except IoError Bytes :=
  if text.length ≤ c.longest then .ok (frame text) else .error .frameTooLong

/-- The frame of a value. -/
def encode (c : Codec) (p : Payload) : Except IoError Bytes := do c.wrap (← p.serialize)

end Codec

/-- Received bytes that are not yet read as frames. -/
structure Decoder where
  /-- The length of the text that is due, if its head has been taken. -/
  due : Option Nat := none
  buffer : Bytes := []
  deriving DecidableEq, Repr

namespace Decoder

/-- Adds received bytes. -/
def feed (d : Decoder) (b : Bytes) : Decoder := { d with buffer := d.buffer ++ b }

/-- Takes the head of a frame, unless it is there already. -/
def takeHead (d : Decoder) (longest : Nat) : Except IoError Decoder :=
  match d.due with
  | some _ => .ok d
  | none =>
    let head := d.buffer.take 4
    if head.length < 4 then .ok d
    else if longest < Bytes.toNat head then .error .headTooLong
    else .ok ⟨some (Bytes.toNat head), d.buffer.drop 4⟩

/-- Takes the text of a frame whose head was taken. -/
def takeText (d : Decoder) : Option (Bytes × Decoder) :=
  match d.due with
  | none => none
  | some n =>
    let text := d.buffer.take n
    if text.length < n then none else some (text, ⟨none, d.buffer.drop n⟩)

/-- Takes the next frame, of a text no longer than `longest`, and reads the text in a given way;
`none` if the frame is not complete. -/
def decodeAs {α : Type} (read : Bytes → Except Json.Fault α) (longest : Nat) (d : Decoder) :
    Except IoError (Option α) × Decoder :=
  match d.takeHead longest with
  | .error e => (.error e, d)
  | .ok d =>
    match d.takeText with
    | none => (.ok none, d)
    | some (text, d) =>
      match read text with
      | .ok v => (.ok (some v), d)
      | .error fault => (.error (.unreadable fault), d)

/-- As `decodeAs`, at the end of the stream: bytes left over are an error. -/
def decodeEndAs {α : Type} (read : Bytes → Except Json.Fault α) (longest : Nat) (d : Decoder) :
    Except IoError (Option α) × Decoder :=
  match d.decodeAs read longest with
  | (.ok none, d) => (if d.buffer.isEmpty then .ok none else .error .cutOff, d)
  | r => r

/-- Takes the next frame and reads its text as the codec says. -/
def decode (c : Codec) (d : Decoder) : Except IoError (Option Json) × Decoder :=
  d.decodeAs c.shape.read c.longest

/-- As `decode`, at the end of the stream. -/
def decodeEnd (c : Codec) (d : Decoder) : Except IoError (Option Json) × Decoder :=
  d.decodeEndAs c.shape.read c.longest

/-- Puts the frame of a value behind what is in the buffer, given the text of the value or why there
is none. Without a frame the buffer stays as it is, and a head that has been taken stays taken. -/
def append (c : Codec) (text : Except IoError Bytes) (d : Decoder) :
    Except IoError Bytes × Decoder :=
  match text >>= c.wrap with
  | .ok frame => (.ok frame, d.feed frame)
  | .error e => (.error e, d)

end Decoder

end WorkerLink
