import Mathlib.Algebra.Group.Nat.Defs
import WorkerLink.Proofs.Text.Digits
import WorkerLink.Proofs.Text.Utf8

/-!
# Bytes read as text, ill-formed or not

Reading bytes as text puts U+FFFD for whatever is ill-formed. Nothing but a byte of ASCII ever
becomes a character of ASCII: a reader inside a character is bound to find one beyond ASCII or an
ill-formed part (`exists_beyond`). So a text in ASCII tells which bytes it was read from
(`eq_of_lossy_ascii`).
-/

namespace WorkerLink.Utf8

variable {b : Bytes} {x : UInt8} {st : State} {due k v : Nat} {low high : UInt8} {seen : Bytes}

/-! ## The pieces from a state on -/

/-- What is found from a state on, in order. -/
def found (st : State) : Bytes → List Piece
  | [] => atEnd st
  | x :: b => (step st x).1 ++ found (step st x).2 b

theorem foldl_advance (acc : List Piece) (st : State) (b : Bytes) :
    (atEnd (b.foldl advance (acc, st)).2 ++ (b.foldl advance (acc, st)).1).reverse =
      acc.reverse ++ found st b := by
  induction b generalizing acc st with
  | nil => cases st <;> simp [found, atEnd]
  | cons x b ih =>
    rw [List.foldl_cons, advance, ih, found, List.reverse_append, List.reverse_reverse,
      List.append_assoc]

theorem pieces_eq_found (b : Bytes) : pieces b = found .start b := by
  rw [pieces_eq, foldl_advance]
  rfl

/-- The character that stands for a piece. -/
def Piece.shown (p : Piece) : Char := p.char?.getD '\uFFFD'

theorem Piece.le_shown_broken (seen : Bytes) : 0x80 ≤ (Piece.broken seen).shown.toNat := by
  rw [shown, char?, Option.getD_none]
  decide

theorem lossy_eq (b : Bytes) : lossy b = (found .start b).map Piece.shown := by
  rw [lossy, pieces_eq_found]
  rfl

/-! ## Readers inside a character -/

/-- Every character whose bits begin with `v` and go on with `k` times six more is one beyond
ASCII. -/
structure Above (k v : Nat) : Prop where
  low : 0x80 ≤ v * 64 ^ k
  high : (v + 1) * 64 ^ k ≤ 0x110000
  valid : (v + 1) * 64 ^ k ≤ 0xD800 ∨ 0xE000 ≤ v * 64 ^ k

theorem Above.succ (h : Above (k + 1) v) (n : Nat) (hn : n < 64) : Above k (v * 64 + n) := by
  have hv : v * 64 ^ (k + 1) ≤ (v * 64 + n) * 64 ^ k := by
    rw [Nat.pow_succ', ← Nat.mul_assoc]
    exact Nat.mul_le_mul_right _ (Nat.le_add_right ..)
  have hv' : (v * 64 + n + 1) * 64 ^ k ≤ (v + 1) * 64 ^ (k + 1) := by
    rw [Nat.pow_succ', ← Nat.mul_assoc]
    exact Nat.mul_le_mul_right _ (by omega)
  exact ⟨Nat.le_trans h.low hv, Nat.le_trans hv' h.high,
    h.valid.imp (Nat.le_trans hv') fun he => Nat.le_trans he hv⟩

theorem Above.char (h : Above 0 v) : 0x80 ≤ (Char.ofNat v).toNat := by
  obtain ⟨hlow, hhigh, hvalid⟩ := h
  simp only [Nat.pow_zero, Nat.mul_one] at hlow hhigh hvalid
  have hv : v.isValidChar := by
    unfold Nat.isValidChar
    omega
  rw [Char.ofNat, dif_pos hv]
  exact hlow

/-- A reader inside a character that can only end beyond ASCII. -/
def State.Beyond : State → Prop
  | .start => False
  | .within due low high v _ =>
    ∀ x : UInt8, low ≤ x → x ≤ high → Above (due - 1) (v * 64 + x.toNat % 64)

theorem above_zero (h : 0x80 ≤ v) (h' : v < 0xD800) : Above 0 v := by
  refine ⟨?_, ?_, .inl ?_⟩ <;> omega

theorem above_one (h : 2 ≤ v) (h' : v < 0x360 ∨ 0x380 ≤ v ∧ v < 0x4400) : Above 1 v := by
  refine ⟨?_, ?_, ?_⟩ <;> omega

theorem above_two (h : 0x10 ≤ v) (h' : v < 0x110) : Above 2 v := by
  refine ⟨?_, ?_, .inr ?_⟩ <;> omega

theorem beyond_within (l h : Nat) (hl : low.toNat = l) (hh : high.toNat = h)
    (habove : ∀ n, l ≤ n → n ≤ h → Above (due - 1) (v * 64 + n % 64)) :
    State.Beyond (.within due low high v seen) := by
  intro x hx hx'
  exact habove x.toNat (hl ▸ UInt8.le_iff_toNat_le.1 hx) (hh ▸ UInt8.le_iff_toNat_le.1 hx')

/-- A first byte beyond ASCII begins a character beyond ASCII, or is no first byte. -/
theorem beyond_first (hx : ¬x ≤ 0x7F) :
    (first x).2.Beyond ∨ first x = ([.broken [x]], .start) := by
  rw [first, if_neg hx]
  simp only [UInt8.le_iff_toNat_le, ← UInt8.toNat_inj, UInt8.reduceToNat]
  split
  · -- two bytes
    exact .inl (beyond_within 0x80 0xBF rfl rfl fun n _ _ => above_zero (by omega) (by omega))
  split
  · -- three bytes, from U+0800 on
    exact .inl (beyond_within 0xA0 0xBF rfl rfl fun n _ _ => above_one (by omega) (by omega))
  split
  · -- three bytes, up to the halves of surrogate pairs
    exact .inl (beyond_within 0x80 0x9F rfl rfl fun n _ _ => above_one (by omega) (by omega))
  split
  · -- three bytes
    exact .inl (beyond_within 0x80 0xBF rfl rfl fun n _ _ => above_one (by omega) (by omega))
  split
  · -- four bytes, from U+10000 on
    exact .inl (beyond_within 0x90 0xBF rfl rfl fun n _ _ => above_two (by omega) (by omega))
  split
  · -- four bytes, up to U+10FFFF
    exact .inl (beyond_within 0x80 0x8F rfl rfl fun n _ _ => above_two (by omega) (by omega))
  split
  · -- four bytes
    exact .inl (beyond_within 0x80 0xBF rfl rfl fun n _ _ => above_two (by omega) (by omega))
  · exact .inr rfl

theorem exists_beyond (h : st.Beyond) (b : Bytes) : ∃ p ∈ found st b, 0x80 ≤ p.shown.toNat := by
  induction b generalizing st with
  | nil =>
    cases st with
    | start => exact h.elim
    | within due low high v seen =>
      exact ⟨_, List.mem_singleton_self _, Piece.le_shown_broken _⟩
  | cons x b ih =>
    cases st with
    | start => exact h.elim
    | within due low high v seen =>
      rw [found, step]
      by_cases hx : low ≤ x ∧ x ≤ high
      · have habove := h x hx.1 hx.2
        simp only [if_pos hx]
        by_cases hdue : due ≤ 1
        · have hzero : due - 1 = 0 := by omega
          rw [hzero] at habove
          rw [if_pos hdue]
          exact ⟨_, List.mem_append_left _ (List.mem_singleton_self _), habove.char⟩
        · obtain ⟨k, hk⟩ : ∃ k, due - 1 = k + 1 := ⟨due - 2, by omega⟩
          rw [hk] at habove
          rw [if_neg hdue]
          refine ih fun y _ _ => ?_
          rw [hk]
          exact habove.succ _ (Nat.mod_lt _ (by decide))
      · simp only [if_neg hx]
        exact ⟨_, List.mem_cons_self, Piece.le_shown_broken _⟩

/-- A text in ASCII was read from the bytes of its characters. -/
theorem eq_of_lossy_ascii (h : ∀ c ∈ lossy b, c.toNat < 0x80) : b = (lossy b).map ascii := by
  rw [lossy_eq] at h ⊢
  have hlt : ∀ p ∈ found .start b, p.shown.toNat < 0x80 := fun p hp => h _ (List.mem_map_of_mem hp)
  clear h
  induction b with
  | nil => rfl
  | cons x b ih =>
    have hnext : found .start (x :: b) = (first x).1 ++ found (first x).2 b := rfl
    rw [hnext] at hlt ⊢
    by_cases hx : x ≤ 0x7F
    · have hfirst : first x = ([.char (Char.ofNat x.toNat)], .start) := if_pos hx
      have hascii : ascii (Char.ofNat x.toNat) = x := by
        have all : ∀ n : Fin 0x80, ascii (Char.ofNat n.val) = UInt8.ofNat n.val := by decide
        have := all ⟨x.toNat, Nat.lt_succ_of_le (UInt8.le_iff_toNat_le.1 hx)⟩
        rwa [UInt8.ofNat_toNat] at this
      rw [hfirst] at hlt ⊢
      have hrest := ih fun p hp => hlt p (List.mem_append_right _ hp)
      rw [List.singleton_append, List.map_cons, List.map_cons, ← hrest]
      exact congrArg (· :: b) hascii.symm
    · -- the rest of the pieces holds one beyond ASCII
      rcases beyond_first hx with hbeyond | hbroken
      · obtain ⟨p, hp, hge⟩ := exists_beyond hbeyond b
        exact (Nat.not_le.2 (hlt p (List.mem_append_right _ hp)) hge).elim
      · rw [hbroken] at hlt
        exact (Nat.not_le.2 (hlt _ List.mem_cons_self) (Piece.le_shown_broken _)).elim

end WorkerLink.Utf8
