import WorkerLink.Descriptor.Basic
import WorkerLink.Json.Reader
import WorkerLink.Json.Skip

/-!
# Session ids and descriptors as JSON

A session id is a string; reading it checks the token as reading a text does. A descriptor is an
object with the members `addr` and `session_id`, written in that order; read in any order, with
unknown members passed over, or as an array of the two.
-/

namespace WorkerLink

open Json (readHead readColon readNext readElems readMembers readEnd skipBlanks)

namespace SessionId

/-- The JSON value of a session id. -/
def toJson (id : SessionId) : Json := .str id.text

/-- Reads a session id at the front of the input. -/
def readJsonValue (s : Bytes) : Except Json.Fault (SessionId × Bytes) := do
  match ← readHead s with
  | (.scalar (.str text), s) =>
    match parse text with
    | .ok id => .ok (id, s)
    | .error e => .error (.misfit (.refused e.message))
  | (h, _) => .error (.misfit (.kind h.found "a string"))

/-- Reads an input that holds one session id. -/
def readJson (s : Bytes) : Except Json.Fault SessionId := do
  let (id, s) ← readJsonValue s
  readEnd s
  .ok id

end SessionId

namespace SocketAddress

/-- Reads a socket address at the front of the input. -/
def readJsonValue (s : Bytes) : Except Json.Fault (SocketAddress × Bytes) := do
  match ← readHead s with
  | (.scalar (.str text), s) =>
    match parse? text with
    | some addr => .ok (addr, s)
    | none => .error (.misfit (.refused "invalid socket address syntax"))
  | (h, _) => .error (.misfit (.kind h.found "socket address"))

end SocketAddress

namespace Descriptor

/-- The JSON value of a descriptor. -/
def toJson (d : Descriptor) : Json :=
  .obj [("addr", .str d.addr.text), ("session_id", d.session.toJson)]

/-- The members of a descriptor read so far. -/
structure Members where
  addr : Option SocketAddress := none
  session : Option SessionId := none

/-- Reads a member. One that was there before is refused before its value is looked at. -/
def Members.read (m : Members) (name : String) (s : Bytes) :
    Except Json.Fault (Members × Bytes) := do
  if name = "addr" then
    if m.addr.isSome then .error (.misfit (.duplicate name))
    else
      let (addr, s) ← SocketAddress.readJsonValue (← readColon s)
      .ok ({ m with addr := some addr }, s)
  else if name = "session_id" then
    if m.session.isSome then .error (.misfit (.duplicate name))
    else
      let (id, s) ← SessionId.readJsonValue (← readColon s)
      .ok ({ m with session := some id }, s)
  else .ok (m, ← Json.skipValue (← readColon s))

/-- The descriptor of complete members. -/
def Members.close (m : Members) : Except Json.Fault Descriptor :=
  match m.addr, m.session with
  | none, _ => .error (.misfit (.missing "addr"))
  | _, none => .error (.misfit (.missing "session_id"))
  | some addr, some session => .ok ⟨addr, session⟩

/-- An array of another length. -/
def wrongLength {α : Type} (n : Nat) : Except Json.Fault α :=
  .error (.misfit (.length n "struct ConnectionDescriptor with 2 elements"))

/-- Reads the two elements of an array, after its opening bracket. -/
def readPair (s : Bytes) : Except Json.Fault (Descriptor × Bytes) := do
  match skipBlanks s with
  | [] => .error .truncated
  | b :: s =>
    if b = ascii ']' then wrongLength 0
    else
      let (addr, s) ← SocketAddress.readJsonValue (b :: s)
      match ← readNext (ascii ']') s with
      | .finished _ => wrongLength 1
      | .item s =>
        let (session, s) ← SessionId.readJsonValue s
        match skipBlanks s with
        | [] => .error .truncated
        | b :: s => if b = ascii ']' then .ok (⟨addr, session⟩, s) else .error .malformed

/-- Reads a descriptor at the front of the input. -/
def readJsonValue (s : Bytes) : Except Json.Fault (Descriptor × Bytes) := do
  match ← readHead s with
  | (.openObj, s) =>
    let (m, s) ← readMembers Members.read s.length {} s
    .ok (← m.close, s)
  | (.openArr, s) => readPair s
  | (h, _) => .error (.misfit (.kind h.found "struct ConnectionDescriptor"))

/-- Reads an input that holds one descriptor. -/
def readJson (s : Bytes) : Except Json.Fault Descriptor := do
  let (d, s) ← readJsonValue s
  readEnd s
  .ok d

end Descriptor

end WorkerLink
