import WorkerLink.Address.Socket
import WorkerLink.Proofs.Address.Alphabet
import WorkerLink.Proofs.Address.Ipv6

/-!
# Socket addresses read back

The text of a socket address holds that address and nothing else, and no question mark.
-/

namespace WorkerLink

open Nat (toDigits)
open Address

namespace SocketAddress

theorem readPort_toDigits (port : UInt16) :
    readPort (':' :: toDigits 10 port.toNat) = some (port, []) := by
  have hp := port.toNat_lt
  have h := @readDecimal_toDigits [] port.toNat 65535 (by omega) endsNumber_nil
  rw [List.append_nil] at h
  simp only [readPort, readChar, if_true, bind, Option.bind, h, UInt16.ofNat_toNat]

/-- The part of the text that names a scope. -/
def scopeChars (scope : UInt32) : List Char :=
  if scope = 0 then [] else '%' :: toDigits 10 scope.toNat

theorem chars_v6 (ip : Ipv6) (scope : UInt32) (port : UInt16) :
    chars (.v6 ip scope port) =
      '[' :: (ip.chars ++ (scopeChars scope ++ ']' :: ':' :: toDigits 10 port.toNat)) := by
  simp only [chars, hostChars, scopeChars, SocketAddress.port, List.cons_append,
    List.append_assoc, List.nil_append]

theorem readScope_scopeChars (scope : UInt32) (cs : List Char) :
    readScope (scopeChars scope ++ ']' :: cs) = (scope, ']' :: cs) := by
  have hs := scope.toNat_lt
  by_cases h : scope = 0
  · rw [h]
    rfl
  · have hn := readDecimal_toDigits (show scope.toNat ≤ 0xFFFFFFFF by omega)
      (endsNumber_cons (by decide) cs : EndsNumber (']' :: cs))
    rw [scopeChars, if_neg h]
    simp only [readScope, List.cons_append, readChar, if_true, bind, Option.bind, hn,
      UInt32.ofNat_toNat]

theorem readV4_chars (ip : Ipv4) (port : UInt16) :
    readV4 (chars (.v4 ip port)) = some (.v4 ip port, []) := by
  have colon : EndsNumber (':' :: toDigits 10 port.toNat) := endsNumber_cons (by decide) _
  simp only [readV4, chars, hostChars, SocketAddress.port, Ipv4.read_chars ip colon, bind,
    Option.bind, readPort_toDigits]

/-- An address ends where its scope or the bracket behind it begins. -/
theorem endsAddress_scopeChars (scope : UInt32) (cs : List Char) :
    EndsAddress (scopeChars scope ++ ']' :: cs) := by
  rw [scopeChars]
  split
  · exact endsAddress_cons (by decide) (by decide) (by decide) _
  · exact endsAddress_cons (by decide) (by decide) (by decide) _

theorem readV6_chars (ip : Ipv6) (scope : UInt32) (port : UInt16) :
    readV6 (chars (.v6 ip scope port)) = some (.v6 ip scope port, []) := by
  have hread := ip.read_chars (endsAddress_scopeChars scope (':' :: toDigits 10 port.toNat))
  simp only [chars_v6, readV6, readChar, if_true, bind, Option.bind, hread, readScope_scopeChars,
    readPort_toDigits]

/-- A socket address reads back from its text. -/
theorem parseChars?_chars (a : SocketAddress) : parseChars? a.chars = some a := by
  cases a with
  | v4 ip port =>
    rw [parseChars?, readV4_chars]
    rfl
  | v6 ip scope port =>
    have h4 : readV4 (chars (.v6 ip scope port)) = none := rfl
    rw [parseChars?, h4, readV6_chars]
    rfl

/-- No socket address holds a question mark. -/
theorem query_notMem_chars (a : SocketAddress) : '?' ∉ a.chars :=
  query_notMem_of_parseChars? a.parseChars?_chars

end SocketAddress

end WorkerLink
