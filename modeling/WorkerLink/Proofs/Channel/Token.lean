import WorkerLink.Proofs.Channel.Gathering
import WorkerLink.Proofs.Descriptor.SessionIds

/-!
# What verification has read

Verification reads the connection in the worker slot up to the length of the token and no further
(`Token`), so its outcome tells what the first bytes were (`Verdict`).
-/

namespace WorkerLink

theorem Authentication.ofToken_eq_verified {id : SessionId} {b : Bytes} :
    ofToken id b = .verified ↔ b = id.bytes := by
  unfold ofToken
  split
  · rename_i h
    exact ⟨fun _ => h, fun _ => rfl⟩
  · rename_i h
    exact ⟨nofun, fun he => (h he).elim⟩

theorem Authentication.ofToken_ne_closedEarly {id : SessionId} {b : Bytes} :
    ofToken id b ≠ .closedEarly := by
  unfold ofToken
  split <;> nofun

/-- What an outcome tells about the bytes that were read. -/
inductive Verdict (id : SessionId) (log : List LogRecord) (s : Stream) : Authentication → Prop where
  | early (hn : s.taken.length < id.length)
      (h : s.IsOver ∨ .error "Failed to open worker socket for verification" ∈ log) :
    Verdict id log s .closedEarly
  | complete (hn : id.length ≤ s.taken.length) :
    Verdict id log s (.ofToken id (s.taken.take id.length))

namespace Verdict

variable {id : SessionId} {log log' : List LogRecord} {s s' : Stream} {o : Authentication}

theorem grows (h : Verdict id log s o) (g : s.Grows s') (hl : ∀ r ∈ log, r ∈ log') :
    Verdict id log' s' o := by
  cases h with
  | early hn h =>
    exact .early (g.taken ▸ hn) (h.imp (·.grows g) (hl _))
  | complete hn =>
    have := @Verdict.complete id log' s' (g.taken ▸ hn)
    rwa [g.taken] at this

/-- What comes behind the token does not matter. -/
theorem append (h : Verdict id log s o) (hn : id.length ≤ s.taken.length) {b : Bytes}
    (hb : s'.taken = s.taken ++ b) : Verdict id log s' o := by
  cases h with
  | early hlt => omega
  | complete =>
    have := @Verdict.complete id log s' (by rw [hb]; simp; omega)
    rwa [hb, List.take_append_of_le_length hn] at this

theorem early_lt (h : Verdict id log s .closedEarly) : s.taken.length < id.length := by
  generalize ho : Authentication.closedEarly = o at h
  cases h with
  | early hn => exact hn
  | complete => exact (Authentication.ofToken_ne_closedEarly ho.symm).elim

theorem verified (h : Verdict id log s .verified) :
    id.length ≤ s.taken.length ∧ s.taken.take id.length = id.bytes := by
  generalize ho : Authentication.verified = o at h
  cases h with
  | early => cases ho
  | complete hn => exact ⟨hn, Authentication.ofToken_eq_verified.1 ho.symm⟩

end Verdict

/-- What has been read of a stream, by the point that verification has reached. -/
def Token (id : SessionId) (log : List LogRecord) (recorded : Option Authentication) (s : Stream) :
    Verifier → Prop
  | .absent | .spawned _ => s.taken = []
  | .reading got => s.taken = got ∧ got.length < id.length
  | .judged o | .publishing o | .recording o => Verdict id log s o
  | .arriving | .wiring _ | .finished => ∀ o, recorded = some o → Verdict id log s o
  | .dropped => False

namespace Token

variable {id : SessionId} {log log' : List LogRecord} {s s' : Stream} {o : Authentication}
  {recorded : Option Authentication} {v : Verifier} {got b : Bytes}

theorem grows (h : Token id log recorded s v) (g : s.Grows s') (hl : ∀ r ∈ log, r ∈ log') :
    Token id log' recorded s' v := by
  cases v with
  | absent | spawned => exact g.taken.trans h
  | reading got => exact ⟨g.taken.trans h.1, h.2⟩
  | judged | publishing | recording => exact Verdict.grows h g hl
  | arriving | wiring | finished => exact fun o ho => (h o ho).grows g hl
  | dropped => exact h

theorem read (h : Token id log recorded s (.reading got))
    (hr : s.receive (id.length - got.length) = (.data b, s')) :
    s'.taken = got ++ b ∧ (got ++ b).length ≤ id.length := by
  obtain ⟨rfl, hlt⟩ := h
  have hrec := s.receives (Nat.sub_pos_of_lt hlt)
  have hb := Stream.length_data_le hr
  rw [hr] at hrec
  refine ⟨?_, by rw [List.length_append]; omega⟩
  cases hrec with
  | data => rfl

theorem complete (h : Token id log recorded s (.reading got))
    (hr : s.receive (id.length - got.length) = (.data b, s'))
    (hn : id.length ≤ (got ++ b).length) :
    Verdict id log s' (.ofToken id (got ++ b)) := by
  obtain ⟨ht, hle⟩ := h.read hr
  have := @Verdict.complete id log s' (by rw [ht]; exact hn)
  rwa [ht, List.take_of_length_le hle] at this

theorem ended (h : Token id log recorded s (.reading got))
    (hr : s.receive (id.length - got.length) = (.finished, s')) :
    Verdict id log s' .closedEarly := by
  obtain ⟨rfl, hlt⟩ := h
  have hrec := s.receives (Nat.sub_pos_of_lt hlt)
  rw [hr] at hrec
  cases hrec with
  | finished hu _ he => exact .early hlt (.inl ⟨hu, Stream.not_isWritable_of_ended he⟩)

theorem broke (h : Token id log recorded s (.reading got)) (hs : s.IsSound) {e : Errno}
    (hr : s.receive (id.length - got.length) = (.failed e, s')) :
    Verdict id log s' .closedEarly := by
  obtain ⟨rfl, hlt⟩ := h
  have hrec := s.receives (Nat.sub_pos_of_lt hlt)
  rw [hr] at hrec
  cases hrec with
  | failed hu hb => exact .early hlt (.inl ⟨hu, hs hb⟩)

theorem verdict (h : Token id log recorded s v) (hv : v.isRecorded = true)
    (ho : recorded = some o) : Verdict id log s o := by
  cases v with
  | arriving | wiring | finished => exact h o ho
  | _ => cases hv

/-- What is read behind the token does not matter. -/
theorem append (h : Token id log recorded s v) (hv : v.isRecorded = true)
    (hn : id.length ≤ s.taken.length) (hb : s'.taken = s.taken ++ b) :
    Token id log recorded s' v := by
  have hall : ∀ o, recorded = some o → Verdict id log s' o :=
    fun o ho => (h.verdict hv ho).append hn hb
  cases v with
  | arriving | wiring | finished => exact hall
  | _ => cases hv

/-- Once the outcome is recorded nothing more is read for it. -/
theorem of_recorded {v' : Verifier} (h : Token id log recorded s v) (hv : v.isRecorded = true)
    (hv' : v'.isRecorded = true) : Token id log recorded s v' := by
  have hall : ∀ o, recorded = some o → Verdict id log s o := fun o ho => h.verdict hv ho
  cases v' with
  | arriving | wiring | finished => exact hall
  | _ => cases hv'

end Token

end WorkerLink
