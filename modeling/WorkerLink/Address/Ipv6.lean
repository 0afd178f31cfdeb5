import WorkerLink.Address.Ipv4

/-!
# Version 6 addresses

Eight groups in lower-case hexadecimal with colons between them. The first longest run of two or
more zero groups is written as `::`, and an address that holds a version 4 one as
`::ffff:a.b.c.d`. A text may put `::` for any run of at least one zero group, and a version 4
address for the last two groups.
-/

namespace WorkerLink

/-- A version 6 address. -/
structure Ipv6 where
  groups : List UInt16
  length_eq : groups.length = 8
  deriving DecidableEq, Repr

namespace Address

/-- Takes a group of one to four hexadecimal digits. -/
def readGroup (cs : List Char) : Option (UInt16 × List Char) :=
  let ds := cs.takeWhile fun c => (hexValue? c).isSome
  if ds = [] ∨ 4 < ds.length then none
  else
    let n := ds.foldl (fun n c => n * 16 + (hexValue? c).getD 0) 0
    some (UInt16.ofNat n, cs.dropWhile fun c => (hexValue? c).isSome)

/-- Takes the colon that stands before every group but the first. -/
def readColon (first : Bool) (cs : List Char) : Option (List Char) :=
  if first then some cs else readChar ':' cs

/-- What a row of groups gave. -/
structure Groups where
  groups : List UInt16
  /-- Whether the last two came from a version 4 address. -/
  embedded : Bool
  rest : List Char

/-- Takes groups, at most `limit`, as far as they go. Where two are still due a version 4 address is
tried first; it ends the row. -/
def readGroups : Nat → Bool → List Char → Groups
  | 0, _, cs => ⟨[], false, cs⟩
  | limit + 1, first, cs =>
    match if limit = 0 then none else readColon first cs >>= Ipv4.read with
    | some (ip, rest) =>
      ⟨[UInt16.ofNat (ip.a.toNat * 256 + ip.b.toNat), UInt16.ofNat (ip.c.toNat * 256 + ip.d.toNat)],
        true, rest⟩
    | none =>
      match readColon first cs >>= readGroup with
      | some (g, rest) =>
        let more := readGroups limit false rest
        { more with groups := g :: more.groups }
      | none => ⟨[], false, cs⟩

end Address

namespace Ipv6

open Address

/-- The number of zero groups from an index on. -/
def zerosAt (gs : List UInt16) (i : Nat) : Nat := ((gs.drop i).takeWhile (· = 0)).length

/-- Start and length of the first longest run of zero groups. -/
def longestZeros (gs : List UInt16) : Nat × Nat :=
  (List.range 8).foldl (fun best i =>
    if best.2 < zerosAt gs i then (i, zerosAt gs i) else best) (0, 0)

/-- Groups with colons between them. -/
def rowChars : List UInt16 → List Char
  | [] => []
  | [g] => Nat.toDigits 16 g.toNat
  | g :: gs => Nat.toDigits 16 g.toNat ++ ':' :: rowChars gs

/-- The version 4 address that an address holds behind `::ffff`. -/
def embedded? (ip : Ipv6) : Option Ipv4 :=
  match ip.groups with
  | [0, 0, 0, 0, 0, 0xFFFF, g, h] =>
    some ⟨UInt8.ofNat (g.toNat / 256), UInt8.ofNat g.toNat, UInt8.ofNat (h.toNat / 256),
      UInt8.ofNat h.toNat⟩
  | _ => none

/-- Whether an address is `::`, which stands for every address of a machine. -/
def isUnspecified (ip : Ipv6) : Bool := ip.groups.all (· = 0)

/-- Whether an address stands for many machines. -/
def isMulticast (ip : Ipv6) : Bool := 0xFF00 ≤ ip.groups.headD 0

/-- Whether an address is valid on a single link only. -/
def isLinkLocal (ip : Ipv6) : Bool :=
  0xFE80 ≤ ip.groups.headD 0 && ip.groups.headD 0 ≤ 0xFEBF

/-- The text of an address. -/
def chars (ip : Ipv6) : List Char :=
  match ip.embedded? with
  | some v4 => "::ffff:".toList ++ v4.chars
  | none =>
    let (start, len) := longestZeros ip.groups
    if 1 < len then
      rowChars (ip.groups.take start) ++ ':' :: ':' :: rowChars (ip.groups.drop (start + len))
    else rowChars ip.groups

/-- The address of eight groups. -/
def ofGroups? (gs : List UInt16) : Option Ipv6 :=
  if h : gs.length = 8 then some ⟨gs, h⟩ else none

/-- Takes an address: eight groups, or groups on both sides of `::` with at least one zero group
between them. No version 4 address may stand before `::`. -/
def read (cs : List Char) : Option (Ipv6 × List Char) := do
  let front := readGroups 8 true cs
  if front.groups.length = 8 then
    some (← ofGroups? front.groups, front.rest)
  else if front.embedded then none
  else
    let cs ← readChar ':' (← readChar ':' front.rest)
    let back := readGroups (7 - front.groups.length) true cs
    let zeros := List.replicate (8 - front.groups.length - back.groups.length) 0
    some (← ofGroups? (front.groups ++ zeros ++ back.groups), back.rest)

end Ipv6

end WorkerLink
