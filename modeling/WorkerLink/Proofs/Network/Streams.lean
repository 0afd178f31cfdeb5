import WorkerLink.Network.Link

/-!
# What happens to the bytes of a stream

Bytes are appended by `Stream.write` and moved from `unread` to `taken` by `Stream.receive`; nothing
else touches them. A stream that is over (`Stream.IsOver`) stays so: nothing is left in it and
nothing can be written any more.
-/

namespace WorkerLink.Stream

variable {s s' : Stream} {b : Bytes} {k : Nat}

/-- Nothing is left to read and nothing will come. -/
def IsOver (s : Stream) : Prop := s.unread = [] ∧ s.isWritable = false

theorem not_isWritable_of_ended (h : s.ended = true ∨ s.abandoned = true) :
    s.isWritable = false := by
  simp only [isWritable, Bool.and_eq_false_iff, Bool.not_eq_false']
  exact h

theorem write_inv (h : s.write b = .ok s') :
    s.isWritable = true ∧ s' = { s with unread := s.unread ++ b } := by
  unfold write at h
  split at h
  · rename_i hw
    cases h
    exact ⟨hw, rfl⟩
  · cases h

theorem write_error_inv {e : Errno} (h : s.write b = .error e) : s.isWritable = false := by
  unfold write at h
  split at h
  · cases h
  · rename_i hw
    simpa using hw

theorem written_write (h : s.write b = .ok s') : s'.written = s.written ++ b := by
  obtain ⟨-, rfl⟩ := write_inv h
  simp [written]

@[simp] theorem taken_finish (e : Ending) : (s.finish e).taken = s.taken := by cases e <;> rfl

@[simp] theorem unread_finish (e : Ending) : (s.finish e).unread = s.unread := by cases e <;> rfl

@[simp] theorem written_finish (e : Ending) : (s.finish e).written = s.written := by cases e <;> rfl

@[simp] theorem ended_finish (e : Ending) : (s.finish e).ended = true := by cases e <;> rfl

@[simp] theorem abandoned_finish (e : Ending) : (s.finish e).abandoned = s.abandoned := by
  cases e <;> rfl

@[simp] theorem isWritable_finish (e : Ending) : (s.finish e).isWritable = false := by
  simp [isWritable]

@[simp] theorem taken_abandon : s.abandon.taken = s.taken := rfl

@[simp] theorem unread_abandon : s.abandon.unread = s.unread := rfl

@[simp] theorem written_abandon : s.abandon.written = s.written := rfl

@[simp] theorem isWritable_abandon : s.abandon.isWritable = false := by
  simp [isWritable, abandon]

/-! ## Growing -/

/-- What the writing side of a stream can do to it, and the reading side without taking bytes. -/
structure Grows (s s' : Stream) : Prop where
  taken : s'.taken = s.taken
  unread : ∃ b, s'.unread = s.unread ++ b ∧ (b = [] ∨ s.isWritable = true)
  closed : s.isWritable = false → s'.isWritable = false
  broken : s'.broken = true → s.broken = true ∨ s'.isWritable = false

theorem Grows.refl (s : Stream) : s.Grows s := ⟨rfl, ⟨[], by simp⟩, id, .inl⟩

theorem grows_write (h : s.write b = .ok s') : s.Grows s' := by
  obtain ⟨hw, rfl⟩ := write_inv h
  exact ⟨rfl, ⟨b, rfl, .inr hw⟩, id, .inl⟩

theorem grows_finish (s : Stream) (e : Ending) : s.Grows (s.finish e) :=
  ⟨by simp, ⟨[], by simp⟩, by simp, by simp⟩

theorem grows_abandon (s : Stream) : s.Grows s.abandon := ⟨rfl, ⟨[], by simp⟩, by simp, by simp⟩

theorem IsOver.grows (h : s.IsOver) (g : s.Grows s') : s'.IsOver := by
  obtain ⟨b, hb, hw⟩ := g.unread
  refine ⟨?_, g.closed h.2⟩
  rcases hw with rfl | hw
  · rw [hb, h.1, List.append_nil]
  · rw [h.2] at hw
    cases hw

/-! ## Reading -/

/-- What a reader that has room for a byte finds. -/
inductive Receives (s : Stream) : Received → Stream → Prop where
  | data {b rest : Bytes} (hb : b ≠ []) (hs : s.unread = b ++ rest) :
    Receives s (.data b) { s with taken := s.taken ++ b, unread := rest }
  | failed (hu : s.unread = []) (hb : s.broken = true) :
    Receives s (.failed Errno.connectionReset) { s with broken := false }
  | finished (hu : s.unread = []) (hb : s.broken = false)
      (he : s.ended = true ∨ s.abandoned = true) : Receives s .finished s
  | nothing (hu : s.unread = []) (hb : s.broken = false) (he : s.ended = false)
      (ha : s.abandoned = false) : Receives s .nothing s

theorem receives (s : Stream) (hk : 0 < k) : s.Receives (s.receive k).1 (s.receive k).2 := by
  have empty : s.unread.take k = [] → s.unread = [] := fun h => by
    rcases List.take_eq_nil_iff.1 h with h | h
    · omega
    · exact h
  unfold receive
  by_cases hb : s.unread.take k = []
  · simp only [hb, ne_eq, not_true_eq_false, if_false]
    by_cases hbr : s.broken = true
    · simp only [hbr, if_true]
      exact .failed (empty hb) hbr
    · simp only [hbr]
      by_cases he : (s.ended || s.abandoned) = true
      · simp only [he, if_true, Bool.false_eq_true, if_false]
        exact .finished (empty hb) (by simpa using hbr) (by simpa using he)
      · simp only [he, Bool.false_eq_true, if_false]
        simp only [Bool.or_eq_true, not_or, Bool.not_eq_true] at he
        exact .nothing (empty hb) (by simpa using hbr) he.1 he.2
  · simp only [ne_eq, hb, not_false_eq_true, if_true]
    exact .data hb (List.take_append_drop k s.unread).symm

/-- A reader that takes everything there is takes what is on its way. -/
theorem receiveAll_data (h : s.unread ≠ []) :
    s.receiveAll = (.data s.unread, { s with taken := s.written, unread := [] }) := by
  simp [receiveAll, receive, h, written]

/-- A reader that takes everything there is has taken all bytes ever written. -/
theorem taken_receiveAll (s : Stream) : s.receiveAll.2.taken = s.written := by
  by_cases h : s.unread = []
  · have hw : s.written = s.taken := by rw [written, h, List.append_nil]
    rw [hw, receiveAll, receive, h, List.take_nil, if_neg (by simp)]
    split
    · rfl
    · split <;> rfl
  · rw [receiveAll_data h]

theorem receivesAll (h : s.unread = []) : s.Receives s.receiveAll.1 s.receiveAll.2 := by
  have he : s.receiveAll = s.receive 1 := by simp [receiveAll, receive, h]
  rw [he]
  exact s.receives Nat.one_pos

theorem length_data_le {limit : Nat} (h : s.receive limit = (.data b, s')) : b.length ≤ limit := by
  unfold receive at h
  by_cases hb : s.unread.take limit = []
  · simp only [hb, ne_eq, not_true_eq_false, if_false] at h
    split at h
    · cases h
    · split at h <;> cases h
  · simp only [ne_eq, hb, not_false_eq_true, if_true, Prod.mk.injEq, Received.data.injEq] at h
    rw [← h.1, List.length_take]
    exact Nat.min_le_left ..

/-- Reading moves bytes from one side to the other and may lift an error; it does no more. -/
theorem receive_frame (s : Stream) (limit : Nat) : ∃ b rest broken, s.unread = b ++ rest ∧
    (broken = true → s.broken = true) ∧
    (s.receive limit).2 = { s with taken := s.taken ++ b, unread := rest, broken } := by
  simp only [receive]
  split
  · exact ⟨_, _, _, (List.take_append_drop limit s.unread).symm, id, rfl⟩
  · split
    · exact ⟨[], s.unread, false, rfl, nofun, by simp⟩
    · split <;> exact ⟨[], s.unread, s.broken, rfl, id, by simp⟩

theorem written_receive (s : Stream) (limit : Nat) : (s.receive limit).2.written = s.written := by
  obtain ⟨b, rest, broken, hu, -, hr⟩ := s.receive_frame limit
  simp [hr, written, hu]

theorem isWritable_receive (s : Stream) (limit : Nat) :
    (s.receive limit).2.isWritable = s.isWritable := by
  obtain ⟨b, rest, broken, -, -, hr⟩ := s.receive_frame limit
  simp [hr, isWritable]

/-! ## Errors -/

/-- An error is due only where nothing can be written any more. -/
def IsSound (s : Stream) : Prop := s.broken = true → s.isWritable = false

theorem IsSound.grows (h : s.IsSound) (g : s.Grows s') : s'.IsSound := by
  intro hb
  rcases g.broken hb with hb | hb
  · exact g.closed (h hb)
  · exact hb

theorem IsSound.receive (h : s.IsSound) (limit : Nat) : (s.receive limit).2.IsSound := by
  intro hb
  rw [isWritable_receive]
  obtain ⟨b, rest, broken, -, hk, hr⟩ := s.receive_frame limit
  rw [hr] at hb
  exact h (hk hb)

end WorkerLink.Stream
