import WorkerLink.Address.Ipv4
import WorkerLink.Proofs.Lists
import WorkerLink.Proofs.Text.Digits

/-!
# Version 4 addresses read back

Each reader takes from the front of a text what was written there, as long as no digit follows.
-/

namespace WorkerLink

open Nat (toDigits)

namespace Address

variable {rest : List Char}

/-- Whether no digit stands at the front of a text. -/
def EndsNumber (rest : List Char) : Prop := ∀ c ∈ rest.head?, c.isDigit = false

theorem endsNumber_nil : EndsNumber [] := nofun

theorem endsNumber_cons {c : Char} (h : c.isDigit = false) (cs : List Char) :
    EndsNumber (c :: cs) := by
  intro x hx
  cases hx
  exact h

theorem readChar_eq_none {c : Char} (h : ∀ x ∈ rest.head?, x ≠ c) : readChar c rest = none := by
  cases rest with
  | nil => rfl
  | cons x cs => exact if_neg (h x rfl)

theorem span_toDigits (n : Nat) (hr : EndsNumber rest) :
    (toDigits 10 n ++ rest).takeWhile Char.isDigit = toDigits 10 n ∧
      (toDigits 10 n ++ rest).dropWhile Char.isDigit = rest :=
  takeWhile_append_of_head (fun _ => isDigit_of_mem_toDigits) hr

theorem readDecimal_toDigits {n max : Nat} (hn : n ≤ max) (hr : EndsNumber rest) :
    readDecimal max (toDigits 10 n ++ rest) = some (n, rest) := by
  obtain ⟨ht, hd⟩ := span_toDigits n hr
  simp only [readDecimal, ht, hd, Nat.ofDigitChars_ten_toDigits]
  rw [if_neg]
  rintro (he | hlt)
  · exact Nat.toDigits_ne_nil he
  · omega

theorem readOctet_toDigits (x : UInt8) (hr : EndsNumber rest) :
    readOctet (toDigits 10 x.toNat ++ rest) = some (x, rest) := by
  have hx := x.toNat_lt
  have hlen : (toDigits 10 x.toNat).length ≤ 3 :=
    (Nat.length_toDigits_le_iff (by omega) (by omega)).2 (by omega)
  simp only [readOctet, (span_toDigits x.toNat hr).1]
  rw [if_neg, readDecimal_toDigits (by omega) hr]
  · simp
  · rintro (hlt | hz)
    · omega
    · exact zero_alone _ hz

theorem readOctet_rest {cs : List Char} {o : UInt8 × List Char} (h : readOctet cs = some o) :
    o.2 = cs.dropWhile Char.isDigit := by
  simp only [readOctet, readDecimal] at h
  split at h
  · cases h
  · split at h <;> cases h
    rfl

end Address

open Address

variable {rest : List Char}

theorem Ipv4.read_chars (ip : Ipv4) (hr : EndsNumber rest) :
    Ipv4.read (ip.chars ++ rest) = some (ip, rest) := by
  have point (cs : List Char) : EndsNumber ('.' :: cs) := endsNumber_cons rfl cs
  simp only [Ipv4.chars, List.append_assoc, List.cons_append, Ipv4.read, bind, Option.bind,
    readOctet_toDigits _ (point _), readOctet_toDigits _ hr, readChar, if_true]

/-- A text whose first digits have no point behind them does not begin with an address. -/
theorem Ipv4.read_eq_none {cs : List Char}
    (h : ∀ c ∈ (cs.dropWhile Char.isDigit).head?, c ≠ '.') : Ipv4.read cs = none := by
  rw [Ipv4.read]
  cases ho : readOctet cs with
  | none => rfl
  | some o =>
    have hrest := readOctet_rest ho
    have hpoint : readChar '.' o.2 = none := by
      rw [hrest]
      exact readChar_eq_none h
    simp only [bind, Option.bind, hpoint]

end WorkerLink
