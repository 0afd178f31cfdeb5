import WorkerLink.SessionId
import WorkerLink.Address.Socket

/-!
# Connection descriptors

What a worker has to know to connect back: `tcp://host:port?sessionId=token`. The first
`?sessionId=` ends the address; the token may hold another one.
-/

namespace WorkerLink

/-- Where a worker connects to, and the token it sends first. -/
structure Descriptor where
  addr : SocketAddress
  session : SessionId
  deriving DecidableEq

namespace Descriptor

/-- What every descriptor starts with. -/
def scheme : List Char := "tcp://".toList

/-- What stands between address and token. -/
def query : List Char := "?sessionId=".toList

/-- The text of a descriptor, as characters. -/
def chars (d : Descriptor) : List Char := scheme ++ d.addr.chars ++ query ++ d.session.chars

/-- The text of a descriptor. -/
def text (d : Descriptor) : String := String.ofList d.chars

/-- What stands before and after the first occurrence of a separator; what was passed over is
gathered in `acc`, last first. -/
def splitAtFirst (sep : List Char) : List Char → List Char → Option (List Char × List Char)
  | acc, [] => if sep = [] then some (acc.reverse, []) else none
  | acc, c :: cs =>
    match sep.isPrefixOf? (c :: cs) with
    | some rest => some (acc.reverse, rest)
    | none => splitAtFirst sep (c :: acc) cs

/-- Reads a descriptor. -/
def parse (s : String) : Except DescriptorError Descriptor :=
  match scheme.isPrefixOf? s.toList with
  | none => .error (.scheme s)
  | some rest =>
    match splitAtFirst query [] rest with
    | none => .error (.missingSession s)
    | some (addr, token) =>
      match SocketAddress.parseChars? addr with
      | none => .error (.address (String.ofList addr))
      | some addr => (SessionId.ofChars token).map (⟨addr, ·⟩)

end Descriptor

end WorkerLink
