import WorkerLink.Address.Ipv6

/-!
# Socket addresses

An address with a port: `a.b.c.d:port`, or a version 6 address in brackets, with the number of its
scope behind a `%` if it has one. Ports and scopes may have leading zeros.
-/

namespace WorkerLink

/-- An address of either version. -/
inductive IpAddress where
  | v4 (ip : Ipv4)
  | v6 (ip : Ipv6)
  deriving DecidableEq, Repr

namespace IpAddress

/-- The text of an address. -/
def chars : IpAddress → List Char
  | .v4 ip => ip.chars
  | .v6 ip => ip.chars

def text (ip : IpAddress) : String := String.ofList ip.chars

/-- The version that an address belongs to. -/
def family : IpAddress → Nat
  | .v4 _ => 4
  | .v6 _ => 6

/-- Reads a text that holds an address and nothing else. -/
def parse? (s : String) : Option IpAddress :=
  match Ipv4.read s.toList with
  | some (ip, []) => some (.v4 ip)
  | _ => match Ipv6.read s.toList with
    | some (ip, []) => some (.v6 ip)
    | _ => none

/-- The address `127.0.0.1`. -/
def localhost : IpAddress := .v4 ⟨127, 0, 0, 1⟩

/-- The address `::1`. -/
def localhost6 : IpAddress := .v6 ⟨[0, 0, 0, 0, 0, 0, 0, 1], rfl⟩

/-- Whether an address belongs to the machine itself: the network `127` or `::1`. -/
def isLoopback : IpAddress → Bool
  | .v4 ip => ip.a = 127
  | ip => ip = localhost6

end IpAddress

/-- An address with a port. A version 6 address may name the scope it belongs to; scope zero is
none. Its flow label is always zero, so it is left out. -/
inductive SocketAddress where
  | v4 (ip : Ipv4) (port : UInt16)
  | v6 (ip : Ipv6) (scope : UInt32) (port : UInt16)
  deriving DecidableEq, Repr

namespace SocketAddress

open Address

/-- An address of no particular scope with a port. -/
def ofIp (ip : IpAddress) (port : UInt16) : SocketAddress :=
  match ip with
  | .v4 ip => .v4 ip port
  | .v6 ip => .v6 ip 0 port

def ip : SocketAddress → IpAddress
  | .v4 ip _ => .v4 ip
  | .v6 ip _ _ => .v6 ip

def port : SocketAddress → UInt16
  | .v4 _ port => port
  | .v6 _ _ port => port

/-- The part of the text in front of the port. -/
def hostChars : SocketAddress → List Char
  | .v4 ip _ => ip.chars
  | .v6 ip scope _ =>
    '[' :: ip.chars ++ (if scope = 0 then [] else '%' :: Nat.toDigits 10 scope.toNat) ++ [']']

/-- The text of a socket address. -/
def chars (a : SocketAddress) : List Char :=
  a.hostChars ++ ':' :: Nat.toDigits 10 a.port.toNat

def text (a : SocketAddress) : String := String.ofList a.chars

/-- Takes a colon and a port. -/
def readPort (cs : List Char) : Option (UInt16 × List Char) := do
  let (n, cs) ← readDecimal 65535 (← readChar ':' cs)
  some (UInt16.ofNat n, cs)

/-- Takes a percent sign and a scope, if they are there. -/
def readScope (cs : List Char) : UInt32 × List Char :=
  match readChar '%' cs >>= readDecimal 0xFFFFFFFF with
  | some (n, rest) => (UInt32.ofNat n, rest)
  | none => (0, cs)

/-- Takes a version 4 address with a port. -/
def readV4 (cs : List Char) : Option (SocketAddress × List Char) := do
  let (ip, cs) ← Ipv4.read cs
  let (port, cs) ← readPort cs
  some (.v4 ip port, cs)

/-- Takes a version 6 address in brackets with a port. -/
def readV6 (cs : List Char) : Option (SocketAddress × List Char) := do
  let (ip, cs) ← Ipv6.read (← readChar '[' cs)
  let (scope, cs) := readScope cs
  let (port, cs) ← readPort (← readChar ']' cs)
  some (.v6 ip scope port, cs)

/-- Reads characters that hold a socket address and nothing else. -/
def parseChars? (cs : List Char) : Option SocketAddress :=
  match (readV4 cs).or (readV6 cs) with
  | some (a, []) => some a
  | _ => none

/-- Reads a text that holds a socket address and nothing else. -/
def parse? (s : String) : Option SocketAddress := parseChars? s.toList

end SocketAddress

end WorkerLink
