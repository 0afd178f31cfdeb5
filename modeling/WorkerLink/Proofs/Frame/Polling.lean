import WorkerLink.Proofs.Frame.Reading

/-!
# Polling a stream of complete frames

A reader of a stream that goes on, with no bad frame in it, finds another value each time it is
asked, or waits and has given out all there is (`Follows.poll`). One that has given out all that
complete frames hold keeps no byte of them (`Follows.drained`).
-/

namespace WorkerLink.FrameReader

variable {c : Codec} {r r' : FrameReader} {s s' : Stream} {p : Progress} {e : IoError} {v : Json}
  {n k : Nat} {vs : List Json} {more : Bytes}

namespace Follows

theorem waited (h : Follows c n r s vs) (hs : Reads c r s .pending r' s') :
    s' = s ∧ Follows c n r' s' vs := by
  cases hs with
  | waiting hi =>
    obtain ⟨hc, d, hd⟩ := h.idle_consumed hi
    exact ⟨rfl, hc, h.began, fun _ => ⟨d, hd⟩, h.atEnd, h.broken, h.sound⟩

theorem isPrefix_items (h : Follows c n r s vs) :
    vs <+: (Decoder.ofBytes (s.written.drop n)).items c := by
  rw [Stream.written, List.drop_append_of_le_length h.began]
  exact h.consumed.isPrefix_items.trans (Decoder.isPrefix_items_feed ..)

theorem drained (h : Follows c n r s vs)
    (hv : (Decoder.ofBytes (s.written.drop n)).items c = vs)
    (hr : (Decoder.ofBytes (s.written.drop n)).remainder c = (none, {})) :
    r.decoder = {} ∧ s.unread = [] := by
  obtain ⟨hi, hrem⟩ := h.consumed s.unread
  rw [← List.drop_append_of_le_length h.began, ← Stream.written] at hi hrem
  rw [hv, List.self_eq_append_right] at hi
  rw [hr] at hrem
  -- nothing is found any more, so what the decoder weighs is what is left of it: nothing
  have hempty : r.decoder.feed s.unread = {} := by
    cases hd : (r.decoder.feed s.unread).decode c with
    | mk found d =>
    cases found with
    | error e =>
      rw [Decoder.remainder_of_error hd] at hrem
      cases hrem
    | ok found =>
    cases found with
    | some v =>
      rw [Decoder.items_of_item hd] at hi
      cases hi
    | none =>
      rw [Decoder.remainder_of_none hd] at hrem
      cases hrem
      exact Decoder.eq_empty_of_weight (Decoder.weight_decodeAs_none hd).symm
  have hdue := congrArg Decoder.due hempty
  have hbuffer := congrArg Decoder.buffer hempty
  rw [Decoder.feed_due] at hdue
  rw [Decoder.feed_buffer, List.append_eq_nil_iff] at hbuffer
  have hd : r.decoder = ⟨r.decoder.due, r.decoder.buffer⟩ := rfl
  rw [hd, hdue, hbuffer.1]
  exact ⟨rfl, hbuffer.2⟩

end Follows

/-- What asking once can give: the next value, or nothing, and then all there is was given out. -/
inductive Asks (c : Codec) (n : Nat) (s : Stream) (vs : List Json) :
    Progress → FrameReader → Stream → Prop where
  | item {v : Json} {r' : FrameReader} {s' : Stream} (hf : Follows c n r' s' (vs ++ [v]))
      (hw : s'.written = s.written) (ho : s'.isWritable = true) : Asks c n s vs (.item v) r' s'
  | pending {r' : FrameReader} {s' : Stream} (hf : Follows c n r' s' vs)
      (hw : s'.written = s.written) (ho : s'.isWritable = true)
      (ha : (Decoder.ofBytes (s.written.drop n)).items c = vs) :
    Asks c n s vs .pending r' s'

theorem Asks.of_written {s₂ : Stream} (hw : s'.written = s.written) (h : Asks c n s' vs p r s₂) :
    Asks c n s vs p r s₂ := by
  cases h with
  | item hf hw₂ ho => exact .item hf (hw₂.trans hw) ho
  | pending hf hw₂ ho ha => exact .pending hf (hw₂.trans hw) ho (hw ▸ ha)

namespace Follows

theorem not_isOver (hw : s.isWritable = true) : ¬s.IsOver := by
  intro ho
  have hn := ho.2
  rw [hw] at hn
  cases hn

/-- A stream that goes on does not end. -/
theorem not_ended (h : Follows c n r s vs) (hw : s.isWritable = true) :
    ¬Reads c r s .ended r' s' := by
  intro hs
  cases hs with
  | ended _ ha => exact not_isOver hw (h.atEnd ha)

/-- A reader fails at a bad frame, or when its stream is over. -/
theorem not_failed (h : Follows c n r s vs) (hw : s.isWritable = true)
    (hg : ((Decoder.ofBytes (s.written.drop n ++ more)).remainder c).1 = none) :
    ¬Reads c r s (.failed e) r' s' := by
  intro hs
  cases hs with
  | refused hd =>
    have hfinal := (h.consumed.refuse hd (s.unread ++ more)).2
    rw [← List.append_assoc, ← List.drop_append_of_le_length h.began, ← Stream.written,
      hg] at hfinal
    cases hfinal
  | cutOff _ ha => exact not_isOver hw (h.atEnd ha)
  | broke _ hu hb =>
    rw [h.broken hb] at hw
    cases hw

/-- Each time bytes are taken there are fewer left. -/
theorem shrinks (hw : s.isWritable = true) (hs : Reads c r s .arrived r' s') :
    s'.isWritable = true ∧ s'.unread.length < s.unread.length := by
  cases hs with
  | arrived _ hb hu =>
    have hpos := List.length_pos_of_ne_nil hb
    rw [hu, List.length_append]
    exact ⟨hw, Nat.lt_add_of_pos_left hpos⟩
  | sawEnd _ _ he =>
    rw [Stream.not_isWritable_of_ended he] at hw
    cases hw

/-- Asking takes no more steps than there are bytes left in the stream, and one. -/
theorem go (h : Follows c n r s vs) (hw : s.isWritable = true)
    (hg : ((Decoder.ofBytes (s.written.drop n ++ more)).remainder c).1 = none)
    (hk : s.unread.length < k) :
    Asks c n s vs (poll.go c k r s).1 (poll.go c k r s).2.1 (poll.go c k r s).2.2 := by
  induction k generalizing r s with
  | zero => cases hk
  | succ k ih =>
    have hreads := step_reads (c := c) (s := s) h.sound
    simp only [poll.go]
    generalize r.step c s = q at hreads ⊢
    obtain ⟨p, r', s'⟩ := q
    simp only at hreads
    cases p with
    | item v =>
      obtain ⟨rfl, hf⟩ := h.item hreads
      exact .item hf rfl hw
    | pending =>
      obtain ⟨hu, -, ha, -⟩ := h.pending hreads
      obtain ⟨rfl, hf⟩ := h.waited hreads
      refine .pending hf rfl hw ?_
      rw [Stream.written, hu, List.append_nil, ha]
    | ended => exact (h.not_ended hw hreads).elim
    | failed e => exact (h.not_failed hw hg hreads).elim
    | arrived =>
      obtain ⟨hwritten, hf⟩ := h.arrived hreads
      obtain ⟨hopen, hlt⟩ := shrinks hw hreads
      have hasks := ih hf hopen (by rw [hwritten]; exact hg) (by omega)
      dsimp only
      exact hasks.of_written hwritten

end Follows

/-- A reader of a stream that goes on, with no bad frame in it, finds the next value or waits. -/
theorem Follows.poll (h : Follows c n r s vs) (hw : s.isWritable = true)
    (hg : ((Decoder.ofBytes (s.written.drop n ++ more)).remainder c).1 = none) :
    Asks c n s vs (r.poll c s).1 (r.poll c s).2.1 (r.poll c s).2.2 :=
  h.go hw hg (Nat.lt_add_of_pos_right (Nat.succ_pos 2))

end WorkerLink.FrameReader
