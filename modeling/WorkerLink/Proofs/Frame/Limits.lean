import WorkerLink.Proofs.Frame.Decoding
import WorkerLink.Proofs.Frame.Encoding
import WorkerLink.Script.Pieces

/-!
# The limit of a codec

A text is put into a frame if it is no longer than the limit and its length fits a head; the frame
then stands behind what the buffer held, and in every other case the buffer stays as it was
(`append_cases`). A decoder of the same limit refuses the heads of exactly the texts that would not
be put into a frame (`refuses_head_iff`), and a head that was refused stays in front of whatever
comes later (`Refuses.run`).
-/

namespace WorkerLink.Decoder

open Script (CodecStep)

variable {α : Type} {read : Bytes → Except Json.Fault α} {c : Codec} {longest n : Nat}
  {d : Decoder} {t : Bytes}

/-! ## Encoding into a buffer -/

theorem append_of_le (h : t.length ≤ c.longest) (d : Decoder) :
    d.append c (.ok t) = (.ok (Codec.frame t), d.feed (Codec.frame t)) := by
  have hw : (Except.ok t >>= c.wrap) = .ok (Codec.frame t) := Codec.wrap_of_le h
  simp only [append, hw]

theorem append_of_lt (h : c.longest < t.length) (d : Decoder) :
    d.append c (.ok t) = (.error .frameTooLong, d) := by
  have hw : (Except.ok t >>= c.wrap) = .error .frameTooLong := Codec.wrap_of_lt h
  simp only [append, hw]

/-- Why a value has no frame: it refused to be written, or its text is too long. -/
def Unframed (c : Codec) (text : Except IoError Bytes) (e : IoError) : Prop :=
  text = .error e ∨ ∃ t, text = .ok t ∧ c.longest < t.length ∧ e = .frameTooLong

/-- What encoding does: it puts the frame behind the buffer, or fails and does nothing. -/
theorem append_cases (c : Codec) (text : Except IoError Bytes) (d : Decoder) :
    (∃ t, text = .ok t ∧ t.length ≤ c.longest ∧
      d.append c text = (.ok (Codec.frame t), d.feed (Codec.frame t))) ∨
    ∃ e, Unframed c text e ∧ d.append c text = (.error e, d) := by
  cases text with
  | error e => exact .inr ⟨e, .inl rfl, rfl⟩
  | ok t =>
    rcases Nat.lt_or_ge c.longest t.length with hlt | hle
    · exact .inr ⟨.frameTooLong, .inr ⟨t, rfl, hlt, rfl⟩, append_of_lt hlt d⟩
    · exact .inl ⟨t, rfl, hle, append_of_le hle d⟩

theorem append_ok_iff (c : Codec) (text : Except IoError Bytes) (d : Decoder) :
    (∃ frame, (d.append c text).1 = .ok frame) ↔ ∃ t, text = .ok t ∧ t.length ≤ c.longest := by
  constructor
  · rintro ⟨frame, hok⟩
    rcases append_cases c text d with ⟨t, ht, hle, -⟩ | ⟨e, -, h⟩
    · exact ⟨t, ht, hle⟩
    · rw [h] at hok
      cases hok
  · rintro ⟨t, rfl, hle⟩
    exact ⟨Codec.frame t, by rw [append_of_le hle]⟩

/-- Encoding leaves the front of the buffer and a head that has been taken as they are. -/
theorem append_progress (c : Codec) (text : Except IoError Bytes) (d : Decoder) :
    (d.append c text).2.due = d.due ∧ d.buffer <+: (d.append c text).2.buffer := by
  rcases append_cases c text d with ⟨t, -, -, h⟩ | ⟨e, -, h⟩
  · rw [h]
    exact ⟨rfl, List.prefix_append _ _⟩
  · rw [h]
    exact ⟨rfl, List.prefix_rfl⟩

theorem append_error (c : Codec) (text : Except IoError Bytes) (d : Decoder) {e : IoError}
    (h : (d.append c text).1 = .error e) : Unframed c text e ∧ (d.append c text).2 = d := by
  rcases append_cases c text d with ⟨t, -, -, hd⟩ | ⟨e', hu, hd⟩
  · rw [hd] at h
    cases h
  · rw [hd] at h
    cases h
    rw [hd]
    exact ⟨hu, rfl⟩

/-! ## Refusing a head -/

/-- The head of too long a text is at the front. -/
structure Refuses (longest : Nat) (d : Decoder) : Prop where
  due : d.due = none
  length : 4 ≤ d.buffer.length
  tooLong : longest < Bytes.toNat (d.buffer.take 4)

theorem Refuses.decodeAs (h : d.Refuses longest) (read : Bytes → Except Json.Fault α) :
    d.decodeAs read longest = (.error .headTooLong, d) := by
  rw [decodeAs_eq, takeHead_of_four h.due h.length, if_pos h.tooLong]

theorem refuses_iff (read : Bytes → Except Json.Fault α) :
    d.Refuses longest ↔ (d.decodeAs read longest).1 = .error .headTooLong := by
  refine ⟨fun h => by rw [h.decodeAs], fun h => ?_⟩
  have hd : d.decodeAs read longest = (.error .headTooLong, (d.decodeAs read longest).2) :=
    Prod.ext h rfl
  rcases decodeAs_error_inv hd with ⟨hh, -⟩ | ⟨d₁, t, fault, -, -, -, hf⟩
  · rcases takeHead_cases d longest with ⟨n, -, hk⟩ | ⟨-, -, hk⟩ | ⟨hdue, hs, hl, -⟩ | ⟨-, -, -, hk⟩
    · rw [hk] at hh
      cases hh
    · rw [hk] at hh
      cases hh
    · exact ⟨hdue, hs, hl⟩
    · rw [hk] at hh
      cases hh
  · cases hf

theorem Refuses.of_prefix {d' : Decoder} (h : d.Refuses longest) (hdue : d'.due = d.due)
    (hb : d.buffer <+: d'.buffer) : d'.Refuses longest := by
  obtain ⟨more, hmore⟩ := hb
  refine ⟨hdue.trans h.due, ?_, ?_⟩
  · rw [← hmore, List.length_append]
    exact Nat.le_add_right_of_le h.length
  · rw [← hmore, List.take_append_of_le_length h.length]
    exact h.tooLong

/-- A decoder refuses the head of a text exactly if the text would not be put into a frame. -/
theorem refuses_head_iff (c : Codec) (hn : n < 0x100000000) (rest : Bytes) :
    (ofBytes (Bytes.ofWord n ++ rest)).Refuses c.longest ↔
      ∀ t : Bytes, t.length = n → ∀ d : Decoder, (d.append c (.ok t)).1 = .error .frameTooLong := by
  have hhead : (Bytes.ofWord n ++ rest).take 4 = Bytes.ofWord n := rfl
  constructor
  · rintro ⟨-, -, hlong⟩ t rfl d
    have hlt : c.longest < t.length := by
      rwa [ofBytes, hhead, Bytes.toNat_ofWord hn] at hlong
    rw [append_of_lt hlt]
  · intro h
    refine ⟨rfl, ?_, ?_⟩
    · rw [ofBytes, List.length_append, Bytes.length_ofWord]
      exact Nat.le_add_right 4 _
    · -- any text of this length will do
      rw [ofBytes, hhead, Bytes.toNat_ofWord hn]
      refine Nat.lt_of_not_le fun hle => ?_
      have hframe := h (List.replicate n 0) List.length_replicate {}
      rw [append_of_le (by rw [List.length_replicate]; exact hle)] at hframe
      cases hframe

/-- A step on a codec leaves a head that is refused where it is. -/
theorem Refuses.step (h : d.Refuses c.longest) (s : CodecStep) :
    (s.run c d).2.due = d.due ∧ d.buffer <+: (s.run c d).2.buffer := by
  cases s with
  | feed b => exact ⟨rfl, List.prefix_append _ _⟩
  | encode p =>
    have hrun : (CodecStep.run c d (.encode p)).2 = (d.append c p.serialize).2 := by
      rw [CodecStep.run]
      split <;> rename_i heq <;> rw [heq]
    rw [hrun]
    exact append_progress c p.serialize d
  | decode =>
    have hrun : (CodecStep.run c d .decode).2 = d := congrArg Prod.snd (h.decodeAs c.shape.read)
    rw [hrun]
    exact ⟨rfl, List.prefix_rfl⟩
  | decodeEnd =>
    have hrun : (CodecStep.run c d .decodeEnd).2 = d :=
      congrArg Prod.snd (decodeEndAs_of_error (h.decodeAs c.shape.read))
    rw [hrun]
    exact ⟨rfl, List.prefix_rfl⟩

/-- The decoder after steps on a codec. -/
def afterSteps (c : Codec) (d : Decoder) (steps : List CodecStep) : Decoder :=
  steps.foldl (fun d s => (s.run c d).2) d

/-- However a codec is used later, a head that was refused stays at the front of the buffer. -/
theorem Refuses.run (h : d.Refuses c.longest) (steps : List CodecStep) :
    (d.afterSteps c steps).Refuses c.longest ∧ d.buffer <+: (d.afterSteps c steps).buffer := by
  induction steps generalizing d with
  | nil => exact ⟨h, List.prefix_rfl⟩
  | cons s steps ih =>
    obtain ⟨hdue, hbuffer⟩ := h.step s
    obtain ⟨hrefuses, hlater⟩ := ih (h.of_prefix hdue hbuffer)
    exact ⟨hrefuses, hbuffer.trans hlater⟩

/-! ## Both sides -/

/-- The limit of a codec on both sides, in every state of its decoder. A value is encoded exactly if
it is written and its text is no longer than the limit and than what a head can announce; the frame
then stands behind what the buffer held, its head being the length of the text. Otherwise nothing
changes. A head that was taken stays taken. The heads that are refused are those of the texts that
are not encoded, and such a head is refused again whatever is done later. -/
theorem limits_agree {α : Type} (read : Bytes → Except Json.Fault α) (c : Codec) :
    let most := min c.limit 0xFFFFFFFF
    (∀ (text : Except IoError Bytes) (d : Decoder),
      ((∃ frame, (d.append c text).1 = .ok frame) ↔ ∃ t, text = .ok t ∧ t.length ≤ most) ∧
      (∀ t, text = .ok t → t.length ≤ most →
        (Bytes.ofWord t.length).toNat = t.length ∧
        d.append c text = (.ok (Bytes.ofWord t.length ++ t),
          { d with buffer := d.buffer ++ (Bytes.ofWord t.length ++ t) })) ∧
      (∀ e, (d.append c text).1 = .error e → Unframed c text e ∧ (d.append c text).2 = d) ∧
      (d.append c text).2.due = d.due) ∧
    (∀ n < 0x100000000, ∀ rest : Bytes,
      ((ofBytes (Bytes.ofWord n ++ rest)).decodeAs read c.longest).1 = .error .headTooLong ↔
        ∀ t : Bytes, t.length = n → ∀ d : Decoder,
          (d.append c (.ok t)).1 = .error .frameTooLong) ∧
    ∀ d : Decoder, (d.decodeAs read c.longest).1 = .error .headTooLong →
      ∀ steps : List CodecStep,
        d.buffer <+: (d.afterSteps c steps).buffer ∧
        (d.afterSteps c steps).decodeAs read c.longest =
          (.error .headTooLong, d.afterSteps c steps) := by
  intro most
  refine ⟨fun text d => ⟨append_ok_iff c text d, ?_, fun e => append_error c text d,
    (append_progress c text d).1⟩, fun n hn rest => ?_, fun d hd steps => ?_⟩
  · rintro t rfl hle
    have hword : t.length < 0x100000000 := Nat.lt_of_le_of_lt hle c.longest_lt
    exact ⟨Bytes.toNat_ofWord hword, append_of_le hle d⟩
  · rw [← refuses_iff read]
    exact refuses_head_iff c hn rest
  · obtain ⟨hrefuses, hbuffer⟩ := ((refuses_iff read).2 hd).run steps
    exact ⟨hbuffer, hrefuses.decodeAs read⟩

end WorkerLink.Decoder
