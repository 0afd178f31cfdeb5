import WorkerLink.Proofs.Frame.Decoding

/-!
# The frames of a list of commands

A list is written frame by frame up to the first entry that cannot be encoded (`Codec.encodeAll`);
that is the longest prefix that can be (`emits_encodeAll`, `Emits.eq_encodeAll`).
-/

namespace WorkerLink.Codec

variable {c : Codec} {p : Payload} {ps : List Payload} {b frame : Bytes} {e : IoError}

theorem wrap_of_le (h : b.length ≤ c.longest) : c.wrap b = .ok (Codec.frame b) := if_pos h

theorem wrap_of_lt (h : c.longest < b.length) : c.wrap b = .error .frameTooLong :=
  if_neg (Nat.not_le.2 h)

/-- The frames of a list, up to the first entry that cannot be encoded. -/
def encodeAll (c : Codec) : List Payload → Bytes
  | [] => []
  | p :: ps =>
    match c.encode p with
    | .ok frame => frame ++ c.encodeAll ps
    | .error _ => []

/-- `b` are the frames of the longest prefix of a list of which every entry can be encoded. -/
def Emits (c : Codec) (ps : List Payload) (b : Bytes) : Prop :=
  ∃ done rest frames, ps = done ++ rest ∧
    List.Forall₂ (fun p frame => c.encode p = .ok frame) done frames ∧ b = frames.flatten ∧
    ∀ p more, rest = p :: more → ∃ e, c.encode p = .error e

theorem encodeAll_cons (h : c.encode p = .ok frame) (ps : List Payload) :
    c.encodeAll (p :: ps) = frame ++ c.encodeAll ps := by
  simp [encodeAll, h]

theorem encodeAll_of_error (h : c.encode p = .error e) (ps : List Payload) :
    c.encodeAll (p :: ps) = [] := by
  simp [encodeAll, h]

theorem emits_encodeAll (c : Codec) (ps : List Payload) : c.Emits ps (c.encodeAll ps) := by
  induction ps with
  | nil => exact ⟨[], [], [], rfl, .nil, rfl, nofun⟩
  | cons p ps ih =>
    cases h : c.encode p with
    | ok frame =>
      obtain ⟨done, rest, frames, hps, hall, hb, hstop⟩ := ih
      refine ⟨p :: done, rest, frame :: frames, by rw [hps, List.cons_append], .cons h hall, ?_,
        hstop⟩
      rw [encodeAll_cons h, hb, List.flatten_cons]
    | error e =>
      refine ⟨[], p :: ps, [], rfl, .nil, encodeAll_of_error h ps, fun p' more he => ?_⟩
      cases he
      exact ⟨e, h⟩

/-- What a list is written as is determined by it. -/
theorem Emits.eq_encodeAll (h : c.Emits ps b) : b = c.encodeAll ps := by
  obtain ⟨done, rest, frames, rfl, hall, rfl, hstop⟩ := h
  induction hall with
  | nil =>
    cases rest with
    | nil => rfl
    | cons p more =>
      obtain ⟨e, he⟩ := hstop p more rfl
      exact (encodeAll_of_error he more).symm
  | cons hp _ ih => rw [List.cons_append, encodeAll_cons hp, ← ih, List.flatten_cons]

end WorkerLink.Codec
