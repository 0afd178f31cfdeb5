/-!
# Cutting texts at byte positions

A position counts the bytes in front of it. One that falls inside a character or behind the end is
no place to cut.
-/

namespace WorkerLink.Text

/-- How many bytes characters take. -/
def byteLength : List Char → Nat
  | [] => 0
  | c :: cs => c.utf8Size + byteLength cs

/-- The characters from a position on. -/
def cutFrom? : Nat → List Char → Option (List Char)
  | 0, cs => some cs
  | _ + 1, [] => none
  | n + 1, c :: cs => if c.utf8Size ≤ n + 1 then cutFrom? (n + 1 - c.utf8Size) cs else none

/-- The characters in front of a position. -/
def cutBefore? : Nat → List Char → Option (List Char)
  | 0, _ => some []
  | _ + 1, [] => none
  | n + 1, c :: cs =>
    if c.utf8Size ≤ n + 1 then (cutBefore? (n + 1 - c.utf8Size) cs).map (c :: ·) else none

/-- The characters between two positions. -/
def cut? (start stop : Nat) (cs : List Char) : Option (List Char) :=
  (cutFrom? start cs).bind (cutBefore? (stop - start))

/-- The end of any first part is a place to cut. -/
theorem cutFrom?_byteLength (before after : List Char) :
    cutFrom? (byteLength before) (before ++ after) = some after := by
  induction before with
  | nil => simp [byteLength, cutFrom?]
  | cons c before ih =>
    have hc := c.utf8Size_pos
    obtain ⟨n, hn⟩ : ∃ n, byteLength (c :: before) = n + 1 :=
      ⟨c.utf8Size + byteLength before - 1, by simp only [byteLength]; omega⟩
    have hrest : n + 1 - c.utf8Size = byteLength before := by
      simp only [byteLength] at hn; omega
    have hle : c.utf8Size ≤ n + 1 := by simp only [byteLength] at hn; omega
    rw [hn, List.cons_append, cutFrom?, if_pos hle, hrest, ih]

/-- Cutting loses nothing. -/
theorem cutBefore?_append_cutFrom? {n : Nat} {cs before after : List Char}
    (hb : cutBefore? n cs = some before) (ha : cutFrom? n cs = some after) :
    before ++ after = cs := by
  induction cs generalizing n before with
  | nil => cases n <;> simp_all [cutBefore?, cutFrom?]
  | cons c cs ih =>
    cases n with
    | zero => simp_all [cutBefore?, cutFrom?]
    | succ n =>
      simp only [cutBefore?, cutFrom?] at hb ha
      split at hb
      · next h =>
        obtain ⟨before', hb', rfl⟩ := Option.map_eq_some_iff.1 hb
        rw [if_pos h] at ha
        simp [ih hb' ha]
      · cases hb

end WorkerLink.Text
