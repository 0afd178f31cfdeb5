import WorkerLink.Bytes

/-!
# Version 4 addresses

Four octets in decimal with points between them. An octet has at most three digits and no leading
zero. Readers take characters from the front of a text and give back the rest.
-/

namespace WorkerLink

/-- A version 4 address. -/
structure Ipv4 where
  a : UInt8
  b : UInt8
  c : UInt8
  d : UInt8
  deriving DecidableEq, Repr

namespace Address

/-- Takes one given character. -/
def readChar (c : Char) : List Char → Option (List Char)
  | [] => none
  | x :: cs => if x = c then some cs else none

/-- Takes decimal digits, as many as there are, for a number of at most `max`. -/
def readDecimal (max : Nat) (cs : List Char) : Option (Nat × List Char) :=
  let ds := cs.takeWhile Char.isDigit
  let n := Nat.ofDigitChars 10 ds 0
  if ds = [] ∨ max < n then none else some (n, cs.dropWhile Char.isDigit)

/-- Takes an octet. -/
def readOctet (cs : List Char) : Option (UInt8 × List Char) :=
  let ds := cs.takeWhile Char.isDigit
  if 3 < ds.length ∨ (ds.head? = some '0' ∧ ds.length ≠ 1) then none
  else (readDecimal 255 cs).map fun (n, rest) => (UInt8.ofNat n, rest)

end Address

namespace Ipv4

open Address

/-- The text of an address. -/
def chars (ip : Ipv4) : List Char :=
  Nat.toDigits 10 ip.a.toNat ++ '.' :: (Nat.toDigits 10 ip.b.toNat ++
    '.' :: (Nat.toDigits 10 ip.c.toNat ++ '.' :: Nat.toDigits 10 ip.d.toNat))

/-- Takes an address. -/
def read (cs : List Char) : Option (Ipv4 × List Char) := do
  let (a, cs) ← readOctet cs
  let (b, cs) ← readOctet (← readChar '.' cs)
  let (c, cs) ← readOctet (← readChar '.' cs)
  let (d, cs) ← readOctet (← readChar '.' cs)
  some (⟨a, b, c, d⟩, cs)

end Ipv4

end WorkerLink
