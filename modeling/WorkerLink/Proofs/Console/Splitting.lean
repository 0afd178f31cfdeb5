import Mathlib.Data.List.ReduceOption
import Mathlib.Data.List.TakeWhile
import WorkerLink.Proofs.Console.Lines

/-!
# The lines of a whole output

The lines of an output are said without any reading of it: it is cut at every newline, what is left
behind the last one counts unless it is empty or a lone carriage return, and the pieces are lines up
to the first one that is too long or no text (`linesOf`). A splitter that has read the output, and
then finishes, gives these lines (`Splitter.finished_eq`), and those it gives before are the first
of them (`Splitter.lines_isPrefix`).
-/

namespace WorkerLink.Console

variable {p : Splitter} {a b : Bytes}

/-- An output cut at every newline, without what is left behind the last newline if that is empty or
a lone carriage return. -/
def pieces (b : Bytes) : List Bytes :=
  let cut := b.splitOn (ascii '\n')
  let last := cut.getLastD []
  if last = [] ∨ last = [ascii '\r'] then cut.dropLast else cut

/-- A piece without one carriage return at its end. -/
def withoutReturn (piece : Bytes) : Bytes :=
  if piece.getLast? = some (ascii '\r') then piece.dropLast else piece

/-- The line of a piece, unless the piece is too long or is no text. -/
def lineText? (piece : Bytes) : Option String :=
  if piece.length ≤ lineLimit then Utf8.toString? (withoutReturn piece) else none

/-- The lines of an output: those of its pieces up to the first one that has none. -/
def linesOf (b : Bytes) : List String :=
  (((pieces b).map lineText?).takeWhile Option.isSome).reduceOption

/-! ## Pieces -/

theorem pieces_newline (ha : ascii '\n' ∉ a) (b : Bytes) :
    pieces (a ++ ascii '\n' :: b) = a :: pieces b := by
  have hcut : (a ++ ascii '\n' :: b).splitOn (ascii '\n') = a :: b.splitOn (ascii '\n') :=
    List.splitOn_append_cons_self_of_not_mem ha b
  obtain ⟨x, xs, hx⟩ := List.exists_cons_of_ne_nil (List.splitOn_ne_nil (ascii '\n') b)
  have hlast : (a :: x :: xs).getLastD [] = (x :: xs).getLastD [] := rfl
  simp only [pieces, hcut, hx, hlast]
  split <;> rfl

theorem pieces_rest (ha : ascii '\n' ∉ a) :
    pieces a = if a = [] ∨ a = [ascii '\r'] then [] else [a] := by
  rw [pieces, List.splitOn_eq_singleton ha]
  rfl

/-- A piece that is not too long is read as its line, whether or not it ends with a newline. -/
theorem lineOf_eq (h : a.length ≤ lineLimit) :
    lineOf a = match lineText? a.reverse with
      | some line => .ok line
      | none => .error .notText := by
  rw [lineText?, if_pos (by rwa [List.length_reverse])]
  cases a with
  | nil => rfl
  | cons x rest =>
    have hbytes : withoutReturn (x :: rest).reverse =
        (if x = ascii '\r' then rest else x :: rest).reverse := by
      rw [withoutReturn, List.reverse_cons, List.getLast?_concat, List.dropLast_concat]
      by_cases hx : x = ascii '\r' <;> simp [hx]
    rw [hbytes]
    rfl

theorem linesOf_newline (ha : ascii '\n' ∉ a) (b : Bytes) :
    linesOf (a ++ ascii '\n' :: b) = match lineText? a with
      | some line => line :: linesOf b
      | none => [] := by
  rw [linesOf, pieces_newline ha, List.map_cons]
  cases lineText? a with
  | some line =>
    rw [List.takeWhile_cons_of_pos rfl, List.reduceOption_cons_of_some]
    rfl
  | none => rfl

theorem linesOf_rest (ha : ascii '\n' ∉ a) :
    linesOf a = if a = [] ∨ a = [ascii '\r'] then [] else (lineText? a).toList := by
  rw [linesOf, pieces_rest ha]
  split
  · rfl
  · cases h : lineText? a <;> simp [h]

/-- Output that begins with too long a piece has no lines. -/
theorem linesOf_tooLong {x : UInt8} (ha : ascii '\n' ∉ a) (hx : x ≠ ascii '\n')
    (hl : lineLimit ≤ a.length) (b : Bytes) : linesOf (a ++ x :: b) = [] := by
  have hnone (rest : Bytes) : lineText? (a ++ x :: rest) = none := by
    refine if_neg ?_
    rw [List.length_append, List.length_cons]
    omega
  by_cases hb : ascii '\n' ∈ b
  · obtain ⟨y, z, rfl, hy⟩ := List.eq_append_cons_of_mem hb
    rw [← List.cons_append, ← List.append_assoc,
      linesOf_newline (by simp [ha, hy, hx.symm]), hnone]
  · rw [linesOf_rest (by simp [ha, hb, hx.symm]), hnone]
    split <;> rfl

/-! ## Splitters -/

namespace Splitter

/-- What has begun is a piece without newline that is not too long yet. -/
structure Stands (p : Splitter) : Prop where
  newline : ascii '\n' ∉ p.begun
  length : p.length = p.begun.length
  le : p.length ≤ lineLimit

theorem Stands.start : Stands {} := ⟨nofun, rfl, Nat.zero_le _⟩

theorem Stands.lineOf_begun (h : p.Stands) :
    lineOf p.begun = match lineText? p.begun.reverse with
      | some line => .ok line
      | none => .error .notText :=
  lineOf_eq (h.length ▸ h.le)

theorem Stands.notMem_reverse (h : p.Stands) : ascii '\n' ∉ p.begun.reverse :=
  fun hm => h.newline (List.mem_reverse.1 hm)

/-- The line that is left at the end of the output, if there is one. -/
def lastLine (next : Except LineFault Splitter) : List String :=
  match next >>= finish with
  | .ok line => line.toList
  | .error _ => []

theorem lastLine_ok (p : Splitter) : lastLine (.ok p) = match p.finish with
    | .ok line => line.toList
    | .error _ => [] := rfl

theorem Stands.finish_eq (h : p.Stands) : lastLine (.ok p) = linesOf p.begun.reverse := by
  have hempty : p.begun.reverse = [] ∨ p.begun.reverse = [ascii '\r'] ↔
      p.begun = [] ∨ p.begun = [ascii '\r'] := by
    simp [List.reverse_eq_iff]
  rw [linesOf_rest h.notMem_reverse, lastLine_ok, finish]
  by_cases hn : p.begun = [] ∨ p.begun = [ascii '\r']
  · rw [if_pos hn, if_pos (hempty.2 hn)]
    rfl
  · rw [if_neg hn, if_neg (mt hempty.1 hn), h.lineOf_begun]
    cases lineText? p.begun.reverse <;> rfl

/-- Reading to the end gives the lines of what had begun and what follows. -/
theorem Stands.read_finish (h : p.Stands) (b : Bytes) :
    (p.read b).lines ++ lastLine (p.read b).next = linesOf (p.begun.reverse ++ b) := by
  induction b generalizing p with
  | nil =>
    rw [List.append_nil]
    exact h.finish_eq
  | cons x b ih =>
    by_cases hx : x = ascii '\n'
    · subst hx
      rw [read_newline, linesOf_newline h.notMem_reverse, h.lineOf_begun]
      cases lineText? p.begun.reverse with
      | none => rfl
      | some line => exact congrArg (line :: ·) (ih .start)
    · rw [read_other hx]
      split
      · rename_i hle
        rw [linesOf_tooLong h.notMem_reverse hx
          (by rwa [List.length_reverse, ← h.length])]
        rfl
      · rename_i hn
        have hs : Stands ⟨x :: p.begun, p.length + 1⟩ := {
          newline := by simpa [h.newline] using Ne.symm hx
          length := congrArg (· + 1) h.length
          le := Nat.lt_of_not_le hn }
        rw [ih hs, List.reverse_cons, List.append_assoc, List.singleton_append]

/-- The lines that an output gives up to its end. -/
theorem finished_eq (b : Bytes) : (read {} b).lines ++ lastLine (read {} b).next = linesOf b :=
  Stands.start.read_finish b

/-- A fault leaves the lines that were read before it. -/
theorem lines_of_fault {e : LineFault} (h : (read {} a).next = .error e) (b : Bytes) :
    (read {} a).lines = linesOf (a ++ b) := by
  have hf := finished_eq (a ++ b)
  rw [read_append_error h, h] at hf
  rw [← hf]
  exact (List.append_nil _).symm

/-- What has been read of an output are its first lines. -/
theorem lines_isPrefix (a b : Bytes) : (read {} a).lines <+: linesOf (a ++ b) := by
  cases h : (read {} a).next with
  | error e => exact lines_of_fault h b ▸ List.prefix_rfl
  | ok p =>
    rw [← finished_eq, read_append h, List.append_assoc]
    exact List.prefix_append ..

end Splitter

end WorkerLink.Console
