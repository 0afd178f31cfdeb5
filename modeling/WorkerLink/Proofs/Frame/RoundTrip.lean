import WorkerLink.Proofs.Frame.Values

/-!
# A buffer of values decoded again

Values are encoded one after the other into one buffer, and the buffer is decoded until there is
nothing to take. Each value comes back as it was, or as an error if it is nested too deep, and an
attempt takes the frame of its own value and no byte more.
-/

namespace WorkerLink

variable {c : Codec} {d : Decoder} {v : Json} {vs : List Json}

/-! ## Decoding until nothing is taken -/

namespace Decoder

/-- The attempts to decode, one behind the other as long as they take something: what each gives,
and what it leaves. -/
def attempts (c : Codec) (d : Decoder) : List (Except IoError (Option Json) × Decoder) :=
  let attempt := d.decode c
  attempt :: if attempt.2.weight < d.weight then attempt.2.attempts c else []
termination_by d.weight

theorem attempts_of_lt (h : (d.decode c).2.weight < d.weight) :
    d.attempts c = d.decode c :: (d.decode c).2.attempts c := by
  rw [attempts]
  exact congrArg _ (if_pos h)

theorem attempts_of_not_lt (h : ¬ (d.decode c).2.weight < d.weight) :
    d.attempts c = [d.decode c] := by
  rw [attempts]
  exact congrArg _ (if_neg h)

end Decoder

/-! ## The frames of values -/

namespace Codec

/-- Puts the frame of a value behind what is in a buffer. -/
def write (c : Codec) (buffer : Bytes) (v : Json) : Except IoError Bytes := do
  .ok (buffer ++ (← c.encode (.value v)))

/-- The error for a value that is nested too deep: its text is taken for malformed. -/
def nestedTooDeep : IoError := .unreadable .malformed

/-- What the frame of a value decodes as: the value, unless it is nested too deep. -/
def received (v : Json) : Except IoError (Option Json) :=
  if v.depth ≤ Json.depthLimit then .ok (some v) else .error nestedTooDeep

/-- What the attempts to decode the frames of values give: for each value what is received, with the
frames of those behind it left, and then nothing, with nothing left. -/
def outcomes : List Json → List (Except IoError (Option Json) × Decoder)
  | [] => [(.ok none, {})]
  | v :: vs => (received v, .ofBytes (frames vs)) :: outcomes vs

theorem frames_cons (v : Json) (vs : List Json) : frames (v :: vs) = frame v.bytes ++ frames vs :=
  rfl

/-- Values whose texts are not too long are written as their frames. -/
theorem foldlM_write {buffer : Bytes} (h : ∀ v ∈ vs, v.bytes.length ≤ c.longest) :
    vs.foldlM c.write buffer = .ok (buffer ++ frames vs) := by
  induction vs generalizing buffer with
  | nil => exact congrArg Except.ok (List.append_nil buffer).symm
  | cons v vs ih =>
    obtain ⟨hv, hvs⟩ := List.forall_mem_cons.1 h
    have hw : c.write buffer v = .ok (buffer ++ frame v.bytes) := by
      rw [write, encode_value hv]
      rfl
    rw [List.foldlM_cons, hw, frames_cons, ← List.append_assoc]
    exact ih hvs

/-- The frame of a value at the front of a buffer is taken, whether the value is nested too deep or
not, and nothing else is. -/
theorem decode_value (hs : c.shape = .any) (hp : v.isPlain = true)
    (h : v.bytes.length ≤ c.longest) (rest : Bytes) :
    (Decoder.ofBytes (frame v.bytes ++ rest)).decode c = (received v, .ofBytes rest) := by
  rw [Decoder.decode_frame h, hs, Json.read_bytes hp, Json.readBack, received]
  by_cases hd : v.depth ≤ Json.depthLimit
  · simp only [if_pos hd]
  · simp only [if_neg hd]
    rfl

theorem weight_frame (v : Json) (rest : Bytes) :
    (Decoder.ofBytes rest).weight < (Decoder.ofBytes (frame v.bytes ++ rest)).weight := by
  simp only [Decoder.weight, Decoder.ofBytes, List.length_append, length_frame,
    Option.isSome_none, Bool.false_eq_true, if_false]
  omega

/-- The attempts to decode the frames of values, one value after the other. -/
theorem attempts_frames (hs : c.shape = .any) (hp : ∀ v ∈ vs, v.isPlain = true)
    (h : ∀ v ∈ vs, v.bytes.length ≤ c.longest) :
    (Decoder.ofBytes (frames vs)).attempts c = outcomes vs := by
  induction vs with
  | nil =>
    -- an empty buffer: nothing to take, and nothing taken
    apply Decoder.attempts_of_not_lt
    exact Nat.lt_irrefl _
  | cons v vs ih =>
    obtain ⟨hpv, hpvs⟩ := List.forall_mem_cons.1 hp
    obtain ⟨hv, hvs⟩ := List.forall_mem_cons.1 h
    have hd := decode_value hs hpv hv (frames vs)
    rw [frames_cons, Decoder.attempts_of_lt, hd, ih hpvs hvs]
    · rfl
    · rw [hd]
      exact weight_frame v (frames vs)

/-- Values that are encoded one after the other into one buffer are decoded in the same order, each
from its own frame and no more, until the buffer is empty. One that is nested too deep is invalid
data, which does not keep those behind it from being decoded. -/
theorem decoded_in_turn (limit : Nat) (vs : List Json) (hp : ∀ v ∈ vs, v.isPlain = true)
    (h : ∀ v ∈ vs, v.bytes.length ≤ longest { limit }) :
    ∃ buffer, vs.foldlM (write { limit }) [] = .ok buffer ∧
      (Decoder.ofBytes buffer).attempts { limit } = outcomes vs ∧
      nestedTooDeep.kind = .invalidData := by
  refine ⟨frames vs, ?_, ?_, rfl⟩
  · exact foldlM_write h
  · exact attempts_frames rfl hp h

/-- So many arrays, each the only element of the next one. -/
def nested : Nat → Json
  | 0 => .arr []
  | n + 1 => .arr [nested n]

/-- A value nested too deep, between two that are not, where the limit is what it takes. -/
theorem decoded_in_turn_of_nested :
    let vs := [.obj [("id", .int (-3))], nested 127, .arr [.null, .bool true, .str "x"]]
    (∀ v ∈ vs, v.isPlain = true) ∧ (∀ v ∈ vs, v.bytes.length ≤ longest { limit := 256 }) ∧
      ∃ buffer, vs.foldlM (write { limit := 256 }) [] = .ok buffer ∧
        (Decoder.ofBytes buffer).attempts { limit := 256 } = outcomes vs ∧
        nestedTooDeep.kind = .invalidData :=
  ⟨by decide +kernel, by decide +kernel,
    decoded_in_turn 256 _ (by decide +kernel) (by decide +kernel)⟩

end Codec

end WorkerLink
