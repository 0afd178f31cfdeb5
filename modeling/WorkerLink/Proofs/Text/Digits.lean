import WorkerLink.Bytes

/-!
# Digits

What the decimal digits of a number are, as characters and as bytes, that a number does not begin
with a zero unless it is zero, and that hexadecimal digits read back.
-/

namespace WorkerLink

open Nat (toDigits)

variable {n : Nat} {c : Char}

theorem toNat_of_isDigit (h : c.isDigit = true) : 0x30 ≤ c.toNat ∧ c.toNat ≤ 0x39 := by
  simp only [Char.isDigit, Bool.and_eq_true, decide_eq_true_eq] at h
  exact h

theorem isDigit_of_mem_toDigits (h : c ∈ toDigits 10 n) : c.isDigit = true :=
  Nat.isDigit_of_mem_toDigits (by omega) (Nat.le_refl 10) h

theorem toNat_ascii (h : c.toNat < 0x80) : (ascii c).toNat = c.toNat := by
  have hv : c.toNat % 256 = c.toNat := Nat.mod_eq_of_lt (by omega)
  rw [ascii, Char.toUInt8, UInt32.toNat_toUInt8]
  exact hv

theorem head_toDigits (hn : 0 < n) : (toDigits 10 n).head? ≠ some '0' := by
  induction n using Nat.strongRecOn with
  | ind n ih =>
    rcases Nat.lt_or_ge n 10 with hlt | hge
    · rw [Nat.toDigits_of_lt_base hlt]
      have all : ∀ k : Fin 10, 0 < k.val → [k.val.digitChar].head? ≠ some '0' := by decide
      exact all ⟨n, hlt⟩ hn
    · have hd := ih (n / 10) (by omega) (by omega)
      rw [Nat.toDigits_of_base_le (by omega) hge, List.head?_append]
      cases hh : (toDigits 10 (n / 10)).head? with
      | none => exact (Nat.toDigits_ne_nil (List.head?_eq_none_iff.1 hh)).elim
      | some d =>
        rw [hh] at hd
        exact hd

/-- A zero stands alone. -/
theorem zero_alone (n : Nat) :
    ¬((toDigits 10 n).head? = some '0' ∧ (toDigits 10 n).length ≠ 1) := by
  rintro ⟨hh, hl⟩
  rcases Nat.eq_zero_or_pos n with rfl | hn
  · exact hl (by rw [Nat.toDigits_zero]; rfl)
  · exact head_toDigits hn hh

/-! ## Hexadecimal digits -/

theorem hexValue?_digitChar (hn : n < 16) : hexValue? n.digitChar = some n := by
  have all : ∀ k : Fin 16, hexValue? k.val.digitChar = some k.val := by decide
  exact all ⟨n, hn⟩

theorem isSome_hexValue?_of_isDigit (h : c.isDigit = true) : (hexValue? c).isSome = true := by
  simp only [Char.isDigit, Bool.and_eq_true, decide_eq_true_eq] at h
  have hc : '0' ≤ c ∧ c ≤ '9' := h
  rw [hexValue?, if_pos hc]
  rfl

theorem isSome_hexValue?_of_mem_toDigits (h : c ∈ toDigits 16 n) :
    (hexValue? c).isSome = true := by
  induction n using Nat.strongRecOn with
  | ind n ih =>
    rcases Nat.lt_or_ge n 16 with hlt | hge
    · rw [Nat.toDigits_of_lt_base hlt, List.mem_singleton] at h
      rw [h, hexValue?_digitChar hlt]
      rfl
    · rw [Nat.toDigits_of_base_le (by omega) hge, List.mem_append, List.mem_singleton] at h
      rcases h with h | rfl
      · exact ih (n / 16) (by omega) h
      · rw [hexValue?_digitChar (Nat.mod_lt n (by omega))]
        rfl

/-- A number reads back from its hexadecimal digits. -/
theorem foldl_toDigits (n : Nat) :
    (toDigits 16 n).foldl (fun m c => m * 16 + (hexValue? c).getD 0) 0 = n := by
  induction n using Nat.strongRecOn with
  | ind n ih =>
    rcases Nat.lt_or_ge n 16 with hlt | hge
    · rw [Nat.toDigits_of_lt_base hlt, List.foldl_cons, List.foldl_nil, hexValue?_digitChar hlt,
        Option.getD_some, Nat.zero_mul, Nat.zero_add]
    · have hd := hexValue?_digitChar (Nat.mod_lt n (show 0 < 16 by omega))
      rw [Nat.toDigits_of_base_le (by omega) hge, List.foldl_append, ih (n / 16) (by omega),
        List.foldl_cons, List.foldl_nil, hd, Option.getD_some]
      omega

end WorkerLink
