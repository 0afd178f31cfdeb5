import WorkerLink.Proofs.Frame.Encoding
import WorkerLink.Proofs.Json.RoundTrip

/-!
# Values travel unaltered

The frames of values that a codec can carry hold exactly these values, and no byte is left behind
them.
-/

namespace WorkerLink.Codec

variable {c : Codec} {v : Json} {vs : List Json}

/-- A value that a codec for any value carries: it is plain, nested not too deep, and its text fits
a frame. -/
structure Fits (c : Codec) (v : Json) : Prop where
  plain : v.isPlain = true
  depth : v.depth ≤ Json.depthLimit
  length : v.bytes.length ≤ c.longest

theorem encode_value (h : v.bytes.length ≤ c.longest) :
    c.encode (.value v) = .ok (frame v.bytes) := by
  exact wrap_of_le h

theorem Fits.encode (h : c.Fits v) : c.encode (.value v) = .ok (frame v.bytes) :=
  encode_value h.length

theorem Fits.carries (h : c.Fits v) (hs : c.shape = .any) : c.Carries v.bytes v :=
  ⟨h.length, by rw [hs, Json.read_bytes h.plain, Json.readBack, if_pos h.depth]⟩

/-- The frames of values, one behind the other. -/
def frames (vs : List Json) : Bytes := ((vs.map Json.bytes).map frame).flatten

theorem encodeAll_values (h : ∀ v ∈ vs, c.Fits v) : c.encodeAll (vs.map .value) = frames vs := by
  induction vs with
  | nil => rfl
  | cons v vs ih =>
    obtain ⟨hv, hvs⟩ := List.forall_mem_cons.1 h
    rw [List.map_cons, encodeAll_cons hv.encode, ih hvs]
    rfl

theorem carries_values (h : ∀ v ∈ vs, c.Fits v) (hs : c.shape = .any) :
    List.Forall₂ c.Carries (vs.map Json.bytes) vs := by
  induction vs with
  | nil => exact .nil
  | cons v vs ih =>
    obtain ⟨hv, hvs⟩ := List.forall_mem_cons.1 h
    exact .cons (hv.carries hs) (ih hvs)

/-- The frames of values hold these values and nothing else. -/
theorem items_frames (h : ∀ v ∈ vs, c.Fits v) (hs : c.shape = .any) :
    (Decoder.ofBytes (frames vs)).items c = vs ∧
      (Decoder.ofBytes (frames vs)).remainder c = (none, {}) := by
  have hall := carries_values h hs
  have hi := Decoder.items_frames hall []
  have hnil : (Decoder.ofBytes []).items c = [] := Decoder.items_of_none rfl
  rw [List.append_nil, hnil, List.append_nil] at hi
  exact ⟨hi, Decoder.remainder_frames hall⟩

end WorkerLink.Codec
