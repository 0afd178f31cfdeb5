import WorkerLink.Frame.Codec
import WorkerLink.Frame.Room
import WorkerLink.Network.Stream

/-!
# Reading frames from a stream

A reader takes as many bytes from the stream as its buffer has room for, gives out the frames in
them one by one, and at the end of the stream what can still be read of the rest. After an error
it reports the end once and then goes on reading: bytes that it holds already are looked at again
only when something arrives behind them.
-/

namespace WorkerLink

/-- A reader of frames. -/
structure FrameReader where
  decoder : Decoder := {}
  /-- The room of its buffer. -/
  room : Room := {}
  /-- Whether the buffer may hold another frame. -/
  readable : Bool := false
  /-- Whether the stream has ended. -/
  atEnd : Bool := false
  /-- Whether the last thing reported was an error. -/
  failed : Bool := false
  deriving DecidableEq, Repr

namespace FrameReader

/-- What one step of a reader gives. -/
inductive Progress where
  | item (v : Json)
  | failed (e : IoError)
  | ended
  /-- Bytes or the end of the stream arrived; a frame may be there now. -/
  | arrived
  /-- Nothing arrived. -/
  | pending

/-- The room after a decoder has looked for a frame. With the head of a frame the room for its text
is made, and with its text that for the next head, while the text is still in use. -/
def roomAfter (r : Room) (longest : Nat) (d : Decoder) : Room :=
  match d.takeHead longest with
  | .error _ => r
  | .ok headed =>
    let r := match d.due, headed.due with
      | none, some n => let r := r.consume 4; r.reserve (n - r.held)
      | _, _ => r
    match headed.takeText with
    | none => r
    | some (text, _) => let r := r.consume text.length; r.reserveShared (4 - r.held)

/-- Looks for a frame in the buffer. -/
def search (c : Codec) (r : FrameReader) : Except IoError (Option Json) × FrameReader :=
  let (found, decoder) := if r.atEnd then r.decoder.decodeEnd c else r.decoder.decode c
  (found, { r with decoder, room := roomAfter r.room c.longest r.decoder })

/-- One step: a frame from the buffer, or else more bytes from the stream. -/
def step (c : Codec) (r : FrameReader) (s : Stream) : Progress × FrameReader × Stream :=
  if r.failed then (.ended, { r with failed := false, readable := false }, s)
  else
    let (found, r) := if r.readable then r.search c else (.ok none, r)
    match found with
    | .ok (some v) => (.item v, r, s)
    | .error e => (.failed e, { r with failed := true }, s)
    | .ok none =>
      if r.readable && r.atEnd then (.ended, { r with readable := false }, s)
      else
        let r := { r with readable := false, room := r.room.reserve 1 }
        match s.receive r.room.free with
        | (.data b, s) =>
          (.arrived, { r with
            decoder := r.decoder.feed b, room := r.room.fill b.length
            atEnd := false, readable := true }, s)
        | (.finished, s) =>
          if r.atEnd then (.ended, r, s)
          else (.arrived, { r with atEnd := true, readable := true }, s)
        | (.failed code, s) => (.failed (.os code), { r with failed := true }, s)
        | (.nothing, s) => (.pending, r, s)

/-- Steps until something is reported. Whenever something arrives fewer bytes are left in the
stream, but for the end, behind which nothing arrives. -/
def poll (c : Codec) (r : FrameReader) (s : Stream) : Progress × FrameReader × Stream :=
  go (s.unread.length + 3) r s
where
  /-- At most so many steps. -/
  go : Nat → FrameReader → Stream → Progress × FrameReader × Stream
    | 0, r, s => (.pending, r, s)
    | n + 1, r, s =>
      match r.step c s with
      | (.arrived, r, s) => go n r s
      | other => other

end FrameReader

end WorkerLink
