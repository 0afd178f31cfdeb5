import WorkerLink.Text.Utf8

/-!
# Well-formed UTF-8 reads back

The bytes of a character take the reader from between characters back there, and it has found that
character and nothing else (`foldl_encodeChar`), so `decode?` reverses `encode` (`decode?_encode`).
-/

namespace WorkerLink.Utf8

variable {b low high : UInt8} {due value : Nat} {seen : Bytes} {c : Char}

/-! ## Single bytes -/

theorem le_ofNat {n : Nat} (hn : n < 256) : low ≤ UInt8.ofNat n ↔ low.toNat ≤ n := by
  rw [UInt8.le_iff_toNat_le, UInt8.toNat_ofNat', Nat.mod_eq_of_lt hn]

theorem ofNat_le {n : Nat} (hn : n < 256) : UInt8.ofNat n ≤ high ↔ n ≤ high.toNat := by
  rw [UInt8.le_iff_toNat_le, UInt8.toNat_ofNat', Nat.mod_eq_of_lt hn]

theorem ofNat_eq {n : Nat} (hn : n < 256) : UInt8.ofNat n = b ↔ n = b.toNat := by
  rw [← UInt8.toNat_inj, UInt8.toNat_ofNat', Nat.mod_eq_of_lt hn]

theorem first_one {n : Nat} (h : n ≤ 0x7F) :
    first (UInt8.ofNat n) = ([.char (Char.ofNat n)], .start) := by
  have hn : n < 256 := by omega
  have hle : UInt8.ofNat n ≤ 0x7F := (ofNat_le hn).2 (by simpa using h)
  rw [first, if_pos hle, UInt8.toNat_ofNat', Nat.mod_eq_of_lt hn]

theorem first_two {n : Nat} (hl : 0xC2 ≤ n) (hh : n ≤ 0xDF) :
    first (UInt8.ofNat n) = ([], .within 1 0x80 0xBF (n % 0x20) [UInt8.ofNat n]) := by
  have hn : n < 256 := by omega
  simp only [first, ofNat_le hn, le_ofNat hn, UInt8.toNat_ofNat', Nat.mod_eq_of_lt hn]
  rw [if_neg (by simp; omega), if_pos (by simp; omega)]

/-- After the first of three bytes the second one is bounded more closely where shorter characters
or halves of surrogate pairs would begin. -/
theorem first_three {n : Nat} (hl : 0xE0 ≤ n) (hh : n ≤ 0xEF) :
    ∃ low high, first (UInt8.ofNat n) = ([], .within 2 low high (n % 0x10) [UInt8.ofNat n]) ∧
      low.toNat = (if n = 0xE0 then 0xA0 else 0x80) ∧
      high.toNat = if n = 0xED then 0x9F else 0xBF := by
  have hn : n < 256 := by omega
  simp only [first, ofNat_le hn, le_ofNat hn, ofNat_eq hn, UInt8.toNat_ofNat', Nat.mod_eq_of_lt hn]
  rw [if_neg (by simp; omega), if_neg (by simp; omega)]
  by_cases h0 : n = 0xE0
  · subst h0
    exact ⟨_, _, rfl, rfl, rfl⟩
  · by_cases hd : n = 0xED
    · subst hd
      exact ⟨_, _, rfl, rfl, rfl⟩
    · rw [if_neg (by simpa using h0), if_neg (by simpa using hd), if_pos (by simp; omega)]
      exact ⟨_, _, rfl, by rw [if_neg h0]; rfl, by rw [if_neg hd]; rfl⟩

/-- After the first of four bytes the second one is bounded more closely where shorter characters
would begin or the last one has gone by. -/
theorem first_four {n : Nat} (hl : 0xF0 ≤ n) (hh : n ≤ 0xF4) :
    ∃ low high, first (UInt8.ofNat n) = ([], .within 3 low high (n % 8) [UInt8.ofNat n]) ∧
      low.toNat = (if n = 0xF0 then 0x90 else 0x80) ∧
      high.toNat = if n = 0xF4 then 0x8F else 0xBF := by
  have hn : n < 256 := by omega
  simp only [first, ofNat_le hn, le_ofNat hn, ofNat_eq hn, UInt8.toNat_ofNat', Nat.mod_eq_of_lt hn]
  rw [if_neg (by simp; omega), if_neg (by simp; omega), if_neg (by simp; omega),
    if_neg (by simp; omega), if_neg (by simp; omega)]
  by_cases h0 : n = 0xF0
  · subst h0
    exact ⟨_, _, rfl, rfl, rfl⟩
  · by_cases h4 : n = 0xF4
    · subst h4
      exact ⟨_, _, rfl, rfl, rfl⟩
    · rw [if_neg (by simpa using h0), if_neg (by simpa using h4), if_pos (by simp; omega)]
      exact ⟨_, _, rfl, by rw [if_neg h0]; rfl, by rw [if_neg h4]; rfl⟩

theorem step_more {n : Nat} (hd : 1 < due) (hl : low.toNat ≤ 0x80 + n) (hn : n < 0x40)
    (hh : 0x80 + n ≤ high.toNat) :
    step (.within due low high value seen) (UInt8.ofNat (n + 0x80)) =
      ([], .within (due - 1) 0x80 0xBF (value * 64 + n) (UInt8.ofNat (n + 0x80) :: seen)) := by
  have hlt : n + 0x80 < 256 := by omega
  have hmod : (n + 0x80) % 64 = n := by omega
  simp only [step, le_ofNat hlt, ofNat_le hlt, UInt8.toNat_ofNat', Nat.mod_eq_of_lt hlt, hmod]
  rw [if_pos (by omega), if_neg (by omega)]

theorem step_last {n : Nat} (hl : low.toNat ≤ 0x80 + n) (hn : n < 0x40)
    (hh : 0x80 + n ≤ high.toNat) :
    step (.within 1 low high value seen) (UInt8.ofNat (n + 0x80)) =
      ([.char (Char.ofNat (value * 64 + n))], .start) := by
  have hlt : n + 0x80 < 256 := by omega
  have hmod : (n + 0x80) % 64 = n := by omega
  simp only [step, le_ofNat hlt, ofNat_le hlt, UInt8.toNat_ofNat', Nat.mod_eq_of_lt hlt, hmod]
  rw [if_pos (by omega), if_pos (Nat.le_refl 1)]

/-! ## Characters -/

/-- What one byte adds to the pieces found so far, the last one first. -/
def advance (acc : List Piece × State) (b : UInt8) : List Piece × State :=
  ((step acc.2 b).1.reverse ++ acc.1, (step acc.2 b).2)

theorem pieces_eq (b : Bytes) :
    pieces b = (atEnd (b.foldl advance ([], .start)).2 ++
      (b.foldl advance ([], .start)).1).reverse := rfl

theorem foldl_encodeChar (c : Char) (acc : List Piece) :
    (String.utf8EncodeChar c).foldl advance (acc, .start) = (.char c :: acc, .start) := by
  have hv : c.val.toNat < 0xD800 ∨ (0xDFFF < c.val.toNat ∧ c.val.toNat < 0x110000) := c.valid
  have hc {n : Nat} (hn : n = c.val.toNat) : Char.ofNat n = c := by
    rw [hn]
    exact Char.ofNat_toNat c
  have start (b : UInt8) : step .start b = first b := rfl
  unfold String.utf8EncodeChar
  generalize hw : c.val.toNat = v at hv
  simp only
  split
  · rename_i h1
    simp only [List.foldl_cons, List.foldl_nil, advance, start, first_one h1, hc hw.symm]
    rfl
  split
  · rename_i h1 h2
    obtain ⟨n, hn, hlt⟩ : ∃ n, v % 0x40 = n ∧ n < 0x40 := ⟨_, rfl, by omega⟩
    have hfirst := first_two (n := v / 64 % 0x20 + 0xC0) (by omega) (by omega)
    have hlast := @step_last 0x80 0xBF ((v / 64 % 0x20 + 0xC0) % 0x20)
      [UInt8.ofNat (v / 64 % 0x20 + 0xC0)] n (by simp) hlt (by simp; omega)
    rw [hn]
    simp only [List.foldl_cons, List.foldl_nil, advance, start, hfirst, hlast]
    rw [hc (by omega)]
    rfl
  split
  · rename_i h1 h2 h3
    obtain ⟨low, high, hfirst, hlow, hhigh⟩ :=
      first_three (n := v / 4096 % 0x10 + 0xE0) (by omega) (by omega)
    have hmore := @step_more low high 2 ((v / 4096 % 0x10 + 0xE0) % 0x10)
      [UInt8.ofNat (v / 4096 % 0x10 + 0xE0)] (v / 64 % 0x40) (by omega)
      (by rw [hlow]; split <;> omega) (by omega) (by rw [hhigh]; split <;> omega)
    have hlast := @step_last 0x80 0xBF ((v / 4096 % 0x10 + 0xE0) % 0x10 * 64 + v / 64 % 0x40)
      [UInt8.ofNat (v / 64 % 0x40 + 0x80), UInt8.ofNat (v / 4096 % 0x10 + 0xE0)]
      (v % 0x40) (by simp) (by omega) (by simp; omega)
    simp only [List.foldl_cons, List.foldl_nil, advance, start, hfirst, hmore, hlast]
    rw [hc (by omega)]
    rfl
  · rename_i h1 h2 h3
    obtain ⟨low, high, hfirst, hlow, hhigh⟩ :=
      first_four (n := v / 262144 % 0x08 + 0xF0) (by omega) (by omega)
    have hsecond := @step_more low high 3 ((v / 262144 % 0x08 + 0xF0) % 8)
      [UInt8.ofNat (v / 262144 % 0x08 + 0xF0)] (v / 4096 % 0x40) (by omega)
      (by rw [hlow]; split <;> omega) (by omega) (by rw [hhigh]; split <;> omega)
    have hthird := @step_more 0x80 0xBF 2 ((v / 262144 % 0x08 + 0xF0) % 8 * 64 + v / 4096 % 0x40)
      [UInt8.ofNat (v / 4096 % 0x40 + 0x80), UInt8.ofNat (v / 262144 % 0x08 + 0xF0)]
      (v / 64 % 0x40) (by omega) (by simp) (by omega) (by simp; omega)
    have hlast := @step_last 0x80 0xBF
      (((v / 262144 % 0x08 + 0xF0) % 8 * 64 + v / 4096 % 0x40) * 64 + v / 64 % 0x40)
      [UInt8.ofNat (v / 64 % 0x40 + 0x80), UInt8.ofNat (v / 4096 % 0x40 + 0x80),
        UInt8.ofNat (v / 262144 % 0x08 + 0xF0)]
      (v % 0x40) (by simp) (by omega) (by simp; omega)
    simp only [List.foldl_cons, List.foldl_nil, advance, start, hfirst, hsecond, hthird, hlast]
    rw [hc (by omega)]
    rfl

theorem foldl_encode (cs : List Char) (acc : List Piece) :
    (encode cs).foldl advance (acc, .start) = ((cs.map .char).reverse ++ acc, .start) := by
  induction cs generalizing acc with
  | nil => rfl
  | cons c cs ih =>
    rw [encode, List.flatMap_cons, List.foldl_append, foldl_encodeChar]
    rw [List.map_cons, List.reverse_cons, List.append_assoc]
    exact ih (.char c :: acc)

/-- Text that was written reads back. -/
theorem decode?_encode (cs : List Char) : decode? (encode cs) = some cs := by
  rw [decode?, pieces_eq, foldl_encode]
  simp only [atEnd, List.append_nil, List.nil_append, List.reverse_reverse]
  induction cs with
  | nil => rfl
  | cons c cs ih => simp [Piece.char?, ih]

theorem toString?_encode (s : String) : toString? (encode s.toList) = some s := by
  rw [toString?, decode?_encode, Option.map_some, String.ofList_toList]

/-! ## Characters beyond ASCII -/

/-- No byte of a character beyond ASCII is a character of its own. -/
theorem le_of_mem_encodeChar (hc : 0x80 ≤ c.toNat) (hb : b ∈ String.utf8EncodeChar c) :
    0x80 ≤ b := by
  have hn : ¬ c.val.toNat ≤ 0x7F := Nat.not_le.2 hc
  have hbig {n k : Nat} (hk : 0x80 ≤ k) (hlt : n + k < 256) : 0x80 ≤ UInt8.ofNat (n + k) :=
    (le_ofNat hlt).2 (Nat.le_trans hk (Nat.le_add_left ..))
  simp only [String.utf8EncodeChar, if_neg hn] at hb
  split at hb
  · simp only [List.mem_cons, List.not_mem_nil, or_false] at hb
    rcases hb with rfl | rfl <;> exact hbig (by omega) (by omega)
  split at hb
  · simp only [List.mem_cons, List.not_mem_nil, or_false] at hb
    rcases hb with rfl | rfl | rfl <;> exact hbig (by omega) (by omega)
  · simp only [List.mem_cons, List.not_mem_nil, or_false] at hb
    rcases hb with rfl | rfl | rfl | rfl <;> exact hbig (by omega) (by omega)

theorem encodeChar_ascii (hc : c.toNat < 0x80) : String.utf8EncodeChar c = [ascii c] := by
  have hn : c.val.toNat ≤ 0x7F := Nat.le_of_lt_succ hc
  simp only [String.utf8EncodeChar, if_pos hn]
  rfl

/-- A text in ASCII takes one byte for each character. -/
theorem encode_of_ascii {cs : List Char} (h : ∀ c ∈ cs, c.toNat < 0x80) :
    encode cs = cs.map ascii := by
  induction cs with
  | nil => rfl
  | cons c cs ih =>
    rw [List.forall_mem_cons] at h
    rw [encode, List.flatMap_cons, encodeChar_ascii h.1, ← encode, ih h.2]
    rfl

end WorkerLink.Utf8
