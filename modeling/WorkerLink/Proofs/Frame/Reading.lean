import WorkerLink.Frame.Reader
import WorkerLink.Proofs.Frame.Decoding
import WorkerLink.Proofs.Network.Streams

/-!
# Reading a stream gives what its bytes hold

`FrameReader.Reads` lists what one step of a reader can do, and `FrameReader.Follows` says how far
a reader has come: what it has given out, together with what its decoder will still find, is what
the bytes hold that it took from the stream. A step keeps this (`Follows.item`,
`Follows.arrived`), and whenever a reader waits or stops it has given out all there is
(`Follows.pending`, `Follows.ended`, `Follows.failed`, `Stopped.items_eq`).
-/

namespace WorkerLink

namespace FrameReader

variable {c : Codec} {r r' : FrameReader} {s s' : Stream} {p : Progress} {v : Json}
  {d d' : Decoder} {e : IoError}

/-! ## One step -/

/-- Nothing is to be found in the buffer; `d` is the decoder after looking. -/
def Idle (c : Codec) (r : FrameReader) (d : Decoder) : Prop :=
  (r.readable = false ∧ d = r.decoder) ∨ (r.readable = true ∧ r.decoder.decode c = (.ok none, d))

/-- What one step of a reader can do; `m` is the room of its buffer afterwards. -/
inductive Reads (c : Codec) (r : FrameReader) (s : Stream) :
    Progress → FrameReader → Stream → Prop where
  | item {v d m} (hr : r.readable = true) (h : r.decoder.decode c = (.ok (some v), d)) :
    Reads c r s (.item v) { r with decoder := d, room := m } s
  | refused {e d m} (h : r.decoder.decode c = (.error e, d)) :
    Reads c r s (.failed e) { r with decoder := d, room := m, failed := true } s
  | cutOff {d m} (h : r.Idle c d) (ha : r.atEnd = true) :
    Reads c r s (.failed .cutOff) { r with decoder := d, room := m, failed := true } s
  | ended {d m} (h : r.Idle c d) (ha : r.atEnd = true) :
    Reads c r s .ended { r with decoder := d, room := m, readable := false } s
  | arrived {d m b rest} (h : r.Idle c d) (hb : b ≠ []) (hs : s.unread = b ++ rest) :
    Reads c r s .arrived
      { r with decoder := d.feed b, room := m, atEnd := false, readable := true }
      { s with taken := s.taken ++ b, unread := rest }
  | sawEnd {d m} (h : r.Idle c d) (hu : s.unread = [])
      (he : s.ended = true ∨ s.abandoned = true) :
    Reads c r s .arrived { r with decoder := d, room := m, atEnd := true, readable := true } s
  | broke {d m} (h : r.Idle c d) (hu : s.unread = []) (hb : s.broken = true) :
    Reads c r s (.failed (.os Errno.connectionReset))
      { r with decoder := d, room := m, readable := false, failed := true }
      { s with broken := false }
  | waiting {d m} (h : r.Idle c d) (hu : s.unread = []) (hb : s.broken = false)
      (he : s.ended = false) (ha : s.abandoned = false) :
    Reads c r s .pending { r with decoder := d, room := m, readable := false } s

theorem decodeEnd_of_item (h : d.decode c = (.ok (some v), d')) :
    d.decodeEnd c = (.ok (some v), d') :=
  Decoder.decodeEndAs_of_item h

theorem decodeEnd_of_error (h : d.decode c = (.error e, d')) : d.decodeEnd c = (.error e, d') :=
  Decoder.decodeEndAs_of_error h

theorem decodeEnd_of_none (h : d.decode c = (.ok none, d')) :
    d.decodeEnd c = (if d'.buffer.isEmpty then .ok none else .error .cutOff, d') :=
  Decoder.decodeEndAs_of_none h

/-- The part of a step behind a fruitless look into the buffer. -/
theorem reads_receive {m : Room} (hi : r.Idle c d) (hm : 0 < m.free)
    {q : Progress × FrameReader × Stream}
    (hq : q = match s.receive m.free with
      | (.data b, s) =>
        (.arrived, { r with
          decoder := d.feed b, room := m.fill b.length, atEnd := false, readable := true }, s)
      | (.finished, s) =>
        if r.atEnd then (.ended, { r with decoder := d, room := m, readable := false }, s)
        else (.arrived, { r with decoder := d, room := m, atEnd := true, readable := true }, s)
      | (.failed code, s) =>
        (.failed (.os code),
          { r with decoder := d, room := m, readable := false, failed := true }, s)
      | (.nothing, s) => (.pending, { r with decoder := d, room := m, readable := false }, s)) :
    Reads c r s q.1 q.2.1 q.2.2 := by
  subst hq
  have hrec := s.receives hm
  generalize s.receive m.free = found at hrec
  obtain ⟨found, s'⟩ := found
  simp only at hrec ⊢
  cases hrec with
  | data hb hs => exact .arrived hi hb hs
  | failed hu hb => exact .broke hi hu hb
  | finished hu hb he =>
    by_cases hat : r.atEnd = true
    · dsimp only
      rw [if_pos hat]
      exact .ended hi hat
    · dsimp only
      rw [if_neg hat]
      exact .sawEnd hi hu he
  | nothing hu hb he ha => exact .waiting hi hu hb he ha

theorem step_reads (hf : r.failed = false) :
    Reads c r s (r.step c s).1 (r.step c s).2.1 (r.step c s).2.2 := by
  have room (m : Room) : 0 < (m.reserve 1).free := m.le_free_reserve 1
  obtain ⟨dec, m, readable, atEnd, failed⟩ := r
  subst hf
  cases readable with
  | false => exact reads_receive (.inl ⟨rfl, rfl⟩) (room _) (by simp [step]; rfl)
  | true =>
    cases hd : dec.decode c with
    | mk found d =>
    cases found with
    | error e =>
      cases atEnd <;> simp [step, search, hd, decodeEnd_of_error hd] <;> exact .refused hd
    | ok found =>
    cases found with
    | some v =>
      cases atEnd <;> simp [step, search, hd, decodeEnd_of_item hd] <;> exact .item rfl hd
    | none =>
      cases atEnd with
      | true =>
        by_cases hb : d.buffer.isEmpty = true
        · simp only [step, search, decodeEnd_of_none hd, hb, if_true]
          exact .ended (.inr ⟨rfl, hd⟩) rfl
        · simp only [step, search, decodeEnd_of_none hd, hb, if_true]
          exact .cutOff (.inr ⟨rfl, hd⟩) rfl
      | false =>
        exact reads_receive (.inr ⟨rfl, hd⟩) (room _) (by simp [step, search, hd]; rfl)

/-- A step takes bytes from the stream at most once. -/
theorem step_stream (c : Codec) (r : FrameReader) (s : Stream) :
    (r.step c s).2.2 = s ∨ ∃ limit, (r.step c s).2.2 = (s.receive limit).2 := by
  unfold step
  split
  · exact .inl rfl
  · generalize (if r.readable = true then r.search c else (.ok none, r)) = found
    obtain ⟨found, r'⟩ := found
    match found with
    | .ok (some v) => exact .inl rfl
    | .error e => exact .inl rfl
    | .ok none =>
      by_cases ha : (r'.readable && r'.atEnd) = true
      · simp only [ha, if_true, true_or]
      · simp only [ha]
        right
        refine ⟨(r'.room.reserve 1).free, ?_⟩
        match s.receive (r'.room.reserve 1).free with
        | (.data b, s') => rfl
        | (.finished, s') => cases r'.atEnd <;> rfl
        | (.failed e, s') => rfl
        | (.nothing, s') => rfl

/-! ## How far a reader has come -/

/-- `vs` was given out of the bytes `b`, and `d` holds what is left: whatever arrives behind `b`,
the values of the whole are `vs` and those that `d` finds, and it comes to the same in the end. -/
def Consumed (c : Codec) (b : Bytes) (vs : List Json) (d : Decoder) : Prop :=
  ∀ more, (Decoder.ofBytes (b ++ more)).items c = vs ++ (d.feed more).items c ∧
    (Decoder.ofBytes (b ++ more)).remainder c = (d.feed more).remainder c

/-- A bad frame stands in the bytes `b` behind `vs`, whatever arrives behind them. -/
def Final (c : Codec) (b : Bytes) (vs : List Json) : Prop :=
  ∀ more, (Decoder.ofBytes (b ++ more)).items c = vs ∧
    ((Decoder.ofBytes (b ++ more)).remainder c).1.isSome = true

namespace Consumed

variable {b : Bytes} {vs : List Json}

theorem start (c : Codec) : Consumed c [] [] {} := fun _ => ⟨rfl, rfl⟩

theorem feed (h : Consumed c b vs d) (x : Bytes) : Consumed c (b ++ x) vs (d.feed x) := by
  intro more
  rw [List.append_assoc, Decoder.feed_feed]
  exact h (x ++ more)

theorem item (h : Consumed c b vs d) (hd : d.decode c = (.ok (some v), d')) :
    Consumed c b (vs ++ [v]) d' := by
  intro more
  obtain ⟨hi, hr⟩ := h more
  rw [Decoder.items_feed_item hd] at hi
  exact ⟨by rw [hi, List.append_assoc, List.singleton_append],
    hr.trans (Decoder.remainder_feed_item hd more)⟩

theorem wait (h : Consumed c b vs d) (hd : d.decode c = (.ok none, d')) : Consumed c b vs d' := by
  intro more
  rw [← Decoder.items_feed_none hd, ← Decoder.remainder_feed_none hd]
  exact h more

theorem refuse (h : Consumed c b vs d) (hd : d.decode c = (.error e, d')) : Final c b vs := by
  intro more
  obtain ⟨hi, hr⟩ := h more
  rw [hi, hr, Decoder.items_feed_error hd, Decoder.remainder_feed_error hd, List.append_nil]
  exact ⟨rfl, rfl⟩

/-- Once nothing is found any more, `vs` is all that the bytes hold. -/
theorem waits (h : Consumed c b vs d) (hd : d.decode c = (.ok none, d')) :
    (Decoder.ofBytes b).items c = vs ∧ (Decoder.ofBytes b).remainder c = (none, d') := by
  obtain ⟨hi, hr⟩ := h []
  rw [List.append_nil, Decoder.feed_nil, Decoder.items_of_none hd, List.append_nil] at hi
  rw [List.append_nil, Decoder.feed_nil, Decoder.remainder_of_none hd] at hr
  exact ⟨hi, hr⟩

theorem isPrefix_items (h : Consumed c b vs d) : vs <+: (Decoder.ofBytes b).items c := by
  have := (h []).1
  rw [List.append_nil] at this
  exact ⟨_, this.symm⟩

end Consumed

/-- A reader began behind the first `n` bytes of a stream and has given out `vs`. -/
structure Follows (c : Codec) (n : Nat) (r : FrameReader) (s : Stream) (vs : List Json) : Prop where
  consumed : Consumed c (s.taken.drop n) vs r.decoder
  began : n ≤ s.taken.length
  idle : r.readable = false → ∃ d, r.decoder.decode c = (.ok none, d)
  atEnd : r.atEnd = true → s.IsOver
  broken : s.broken = true → s.isWritable = false
  sound : r.failed = false

/-- A reader that began behind the first `n` bytes of a stream has given out all it ever will. -/
def Stopped (c : Codec) (n : Nat) (s : Stream) (vs : List Json) : Prop :=
  n ≤ s.taken.length ∧ (Final c (s.taken.drop n) vs ∨
    (s.IsOver ∧ (Decoder.ofBytes (s.taken.drop n)).items c = vs))

namespace Follows

variable {n : Nat} {vs : List Json}

theorem start (c : Codec) (h : s.taken.length = n) (hb : s.broken = true → s.isWritable = false) :
    Follows c n {} s [] where
  consumed := by
    rw [List.drop_of_length_le (Nat.le_of_eq h)]
    exact .start c
  began := Nat.le_of_eq h.symm
  idle _ := ⟨{}, rfl⟩
  atEnd h := nomatch h
  broken := hb
  sound := rfl

theorem grows (h : Follows c n r s vs) (g : s.Grows s') : Follows c n r s' vs where
  consumed := g.taken ▸ h.consumed
  began := g.taken ▸ h.began
  idle := h.idle
  atEnd ha := (h.atEnd ha).grows g
  broken hb := (g.broken hb).elim (fun hb => g.closed (h.broken hb)) id
  sound := h.sound

theorem idle_consumed (h : Follows c n r s vs) (hi : r.Idle c d) :
    Consumed c (s.taken.drop n) vs d ∧ ∃ d', d.decode c = (.ok none, d') := by
  rcases hi with ⟨hr, rfl⟩ | ⟨-, hd⟩
  · exact ⟨h.consumed, h.idle hr⟩
  · exact ⟨h.consumed.wait hd, d, Decoder.decodeAs_none_again hd⟩

theorem item (h : Follows c n r s vs) (hs : Reads c r s (.item v) r' s') :
    s' = s ∧ Follows c n r' s' (vs ++ [v]) := by
  cases hs with
  | item hr hd =>
    exact ⟨rfl, { h with consumed := h.consumed.item hd, idle := fun hn => by simp [hr] at hn }⟩

theorem arrived (h : Follows c n r s vs) (hs : Reads c r s .arrived r' s') :
    s'.written = s.written ∧ Follows c n r' s' vs := by
  cases hs with
  | arrived hi hb hu =>
    refine ⟨by simp [Stream.written, hu], ?_, ?_, ?_, ?_, h.broken, h.sound⟩
    · rw [List.drop_append_of_le_length h.began]
      exact (h.idle_consumed hi).1.feed _
    · exact Nat.le_trans h.began (by simp)
    · intro hr
      cases hr
    · intro he
      cases he
  | sawEnd hi hu he =>
    refine ⟨rfl, (h.idle_consumed hi).1, h.began, ?_,
      fun _ => ⟨hu, Stream.not_isWritable_of_ended he⟩, h.broken, h.sound⟩
    intro hr
    cases hr

/-- A reader that waits has given out all that its stream holds so far. -/
theorem pending (h : Follows c n r s vs) (hs : Reads c r s .pending r' s') :
    s.unread = [] ∧ s.isWritable = true ∧ (Decoder.ofBytes (s.taken.drop n)).items c = vs ∧
      ∃ d, (Decoder.ofBytes (s.taken.drop n)).remainder c = (none, d) ∧
        d.weight = r.decoder.weight := by
  cases hs with
  | waiting hi hu _ he ha =>
    have looked : ∃ d, r.decoder.decode c = (.ok none, d) := by
      rcases hi with ⟨hr, -⟩ | ⟨-, hd⟩
      · exact h.idle hr
      · exact ⟨_, hd⟩
    obtain ⟨d, hd⟩ := looked
    obtain ⟨hv, hr⟩ := h.consumed.waits hd
    exact ⟨hu, by simp [Stream.isWritable, he, ha], hv, d, hr, Decoder.weight_decodeAs_none hd⟩

/-- At the end of its stream a reader has given out all that the stream holds. -/
theorem ended (h : Follows c n r s vs) (hs : Reads c r s .ended r' s') :
    s' = s ∧ Stopped c n s' vs := by
  cases hs with
  | ended hi ha =>
    obtain ⟨hc, _, hn⟩ := h.idle_consumed hi
    exact ⟨rfl, h.began, .inr ⟨h.atEnd ha, (hc.waits hn).1⟩⟩

/-- When a reader fails nothing more can be given out, whatever arrives. -/
theorem failed (h : Follows c n r s vs) (hs : Reads c r s (.failed e) r' s') :
    s'.written = s.written ∧ Stopped c n s' vs := by
  cases hs with
  | refused hd => exact ⟨rfl, h.began, .inl (h.consumed.refuse hd)⟩
  | cutOff hi ha =>
    obtain ⟨hc, _, hn⟩ := h.idle_consumed hi
    exact ⟨rfl, h.began, .inr ⟨h.atEnd ha, (hc.waits hn).1⟩⟩
  | broke hi hu hb =>
    obtain ⟨hc, _, hn⟩ := h.idle_consumed hi
    exact ⟨rfl, h.began, .inr ⟨⟨hu, h.broken hb⟩, (hc.waits hn).1⟩⟩

end Follows

namespace Stopped

variable {n : Nat} {vs : List Json}

theorem grows (h : Stopped c n s vs) (g : s.Grows s') : Stopped c n s' vs := by
  obtain ⟨hn, h | ⟨ho, hi⟩⟩ := h
  · exact ⟨g.taken ▸ hn, .inl (g.taken ▸ h)⟩
  · exact ⟨g.taken ▸ hn, .inr ⟨ho.grows g, g.taken ▸ hi⟩⟩

/-- A reader stops at a bad frame or at the end of its stream. -/
theorem cause (h : Stopped c n s vs) :
    ((Decoder.ofBytes (s.written.drop n)).remainder c).1.isSome = true ∨ s.IsOver := by
  obtain ⟨hn, h | ⟨ho, -⟩⟩ := h
  · left
    rw [Stream.written, List.drop_append_of_le_length hn]
    exact (h s.unread).2
  · exact .inr ho

/-- What a reader gave out before it stopped is what its whole stream holds. -/
theorem items_eq (h : Stopped c n s vs) :
    (Decoder.ofBytes (s.written.drop n)).items c = vs := by
  rw [Stream.written, List.drop_append_of_le_length h.1]
  obtain ⟨-, h | ⟨ho, hi⟩⟩ := h
  · exact (h s.unread).1
  · rw [ho.1, List.append_nil, hi]

theorem isPrefix_items (h : Stopped c n s vs) :
    vs <+: (Decoder.ofBytes (s.taken.drop n)).items c := by
  obtain ⟨-, h | ⟨-, hi⟩⟩ := h
  · have heq := (h []).1
    rw [List.append_nil] at heq
    exact ⟨[], by rw [heq, List.append_nil]⟩
  · exact ⟨[], by rw [hi, List.append_nil]⟩

end Stopped

end FrameReader

end WorkerLink
