/-!
# Byte strings

What travels over a connection is a list of bytes. This module fixes that type, the code of an
ASCII character, big-endian words of four bytes and lower-case hexadecimal text.
-/

namespace WorkerLink

/-- A byte string, first byte first. -/
abbrev Bytes := List UInt8

/-- The code of an ASCII character as a byte. -/
def ascii (c : Char) : UInt8 := c.toUInt8

/-- The code of every character of an ASCII text. -/
def asciiBytes (s : String) : Bytes := s.toList.map ascii

/-- The digit of a number below sixteen, lower-case. -/
def hexDigit (n : Nat) : Char :=
  if n < 10 then Char.ofNat (0x30 + n) else Char.ofNat (0x57 + n)

/-- The value of a hexadecimal digit of either case. -/
def hexValue? (c : Char) : Option Nat :=
  if '0' ≤ c ∧ c ≤ '9' then some (c.toNat - 0x30)
  else if 'a' ≤ c ∧ c ≤ 'f' then some (c.toNat - 0x57)
  else if 'A' ≤ c ∧ c ≤ 'F' then some (c.toNat - 0x37)
  else none

namespace Bytes

/-- Two lower-case digits for each byte. -/
def toHex (b : Bytes) : List Char :=
  b.flatMap fun x => [hexDigit (x.toNat / 16), hexDigit (x.toNat % 16)]

/-- The four bytes of `n` modulo `2 ^ 32`, the most significant first. -/
def ofWord (n : Nat) : Bytes :=
  [UInt8.ofNat (n / 0x1000000), UInt8.ofNat (n / 0x10000), UInt8.ofNat (n / 0x100), UInt8.ofNat n]

/-- The number that big-endian bytes stand for. -/
def toNat (b : Bytes) : Nat := b.foldl (fun n x => n * 256 + x.toNat) 0

theorem length_ofWord (n : Nat) : (ofWord n).length = 4 := rfl

/-- A word reads back, as long as it fits four bytes. -/
theorem toNat_ofWord {n : Nat} (h : n < 0x100000000) : (ofWord n).toNat = n := by
  simp only [toNat, ofWord, List.foldl_cons, List.foldl_nil, UInt8.toNat_ofNat']
  omega

end Bytes

end WorkerLink
