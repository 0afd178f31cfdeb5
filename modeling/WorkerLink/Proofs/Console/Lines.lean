import WorkerLink.Console.Lines

/-!
# Output that comes in pieces

However output is cut into pieces, the lines read from the pieces are those of the whole, and the
first piece that holds a fault is the last one that is read (`read_append`, `read_append_error`).
-/

namespace WorkerLink.Console.Splitter

variable {p q : Splitter} {a : Bytes} {e : LineFault}

/-- The lines that were gathered before stand in front of those that are read. -/
theorem readInto_eq (lines : List String) (p : Splitter) (b : Bytes) :
    readInto lines p b = ⟨lines.reverse ++ (p.read b).lines, (p.read b).next⟩ := by
  induction b generalizing lines p with
  | nil => simp [read, readInto]
  | cons x rest ih =>
    unfold read readInto
    split
    · cases lineOf p.begun with
      | ok line =>
        dsimp only
        rw [ih (line :: lines), ih [line]]
        simp
      | error e => simp
    · split
      · simp
      · rw [ih lines, ih []]
        simp

/-- What a newline makes of the line that has begun. -/
theorem read_newline (p : Splitter) (b : Bytes) : p.read (ascii '\n' :: b) =
    match lineOf p.begun with
    | .ok line => ⟨line :: (read {} b).lines, (read {} b).next⟩
    | .error e => ⟨[], .error e⟩ := by
  rw [read, readInto, if_pos rfl]
  cases lineOf p.begun with
  | ok line => exact readInto_eq [line] {} b
  | error e => rfl

/-- Any other byte goes to the end of the line that has begun. -/
theorem read_other {x : UInt8} (hx : x ≠ ascii '\n') (p : Splitter) (b : Bytes) :
    p.read (x :: b) =
      if lineLimit ≤ p.length then ⟨[], .error .tooLong⟩
      else read ⟨x :: p.begun, p.length + 1⟩ b := by
  rw [read, readInto, if_neg hx]
  rfl

/-- Reading goes on where it stood. -/
theorem read_append (h : (p.read a).next = .ok q) (b : Bytes) :
    p.read (a ++ b) = ⟨(p.read a).lines ++ (q.read b).lines, (q.read b).next⟩ := by
  induction a generalizing p with
  | nil =>
    obtain rfl : p = q := Except.ok.inj h
    rfl
  | cons x rest ih =>
    rw [List.cons_append]
    by_cases hx : x = ascii '\n'
    · subst hx
      rw [read_newline] at h ⊢
      rw [read_newline]
      cases hl : lineOf p.begun with
      | error e =>
        rw [hl] at h
        cases h
      | ok line =>
        rw [hl] at h
        simp only [ih h, List.cons_append]
    · rw [read_other hx] at h ⊢
      rw [read_other hx]
      split at h
      · cases h
      · rename_i hn
        rw [if_neg hn, if_neg hn, ih h]

/-- Nothing is read behind a fault. -/
theorem read_append_error (h : (p.read a).next = .error e) (b : Bytes) :
    p.read (a ++ b) = p.read a := by
  induction a generalizing p with
  | nil => cases h
  | cons x rest ih =>
    rw [List.cons_append]
    by_cases hx : x = ascii '\n'
    · subst hx
      rw [read_newline] at h
      rw [read_newline, read_newline]
      cases hl : lineOf p.begun with
      | error e' => rfl
      | ok line =>
        rw [hl] at h
        simp only [ih h]
    · rw [read_other hx] at h
      rw [read_other hx, read_other hx]
      split at h
      · rename_i hn
        rw [if_pos hn, if_pos hn]
      · rename_i hn
        rw [if_neg hn, if_neg hn, ih h]

end WorkerLink.Console.Splitter
