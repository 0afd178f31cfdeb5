import Mathlib.Data.List.Forall2
import WorkerLink.Frame.Codec

/-!
# What a byte string holds in frames

`Decoder.items` are the values that a decoder takes out of its buffer until it has to wait or meets
a frame that is too long or cannot be read. The main statements: what has been found stays found
when more bytes arrive (`decodeAs_feed_item`, `decodeAs_feed_error`, `decodeAs_feed_none`), so the
items do not depend on how the bytes are cut (`items_feed_none`); and the items of a byte string are
those of its longest prefix of good frames (`holds_items`, `Codec.Holds.eq_items`).
-/

namespace WorkerLink

/-! ## Frames -/

/-- Four bytes are the word that they stand for. -/
theorem Bytes.ofWord_toNat {b : Bytes} (h : b.length = 4) : ofWord b.toNat = b := by
  match b, h with
  | [w, x, y, z], _ =>
    have hw := w.toNat_lt
    have hx := x.toNat_lt
    have hy := y.toNat_lt
    have hz := z.toNat_lt
    simp only [ofWord, toNat, List.foldl_cons, List.foldl_nil, List.cons.injEq, and_true,
      ← UInt8.toNat_inj, UInt8.toNat_ofNat']
    omega

namespace Codec

theorem longest_lt (c : Codec) : c.longest < 0x100000000 := by
  unfold longest
  omega

theorem length_frame (t : Bytes) : (frame t).length = 4 + t.length := by
  simp [frame, Bytes.length_ofWord]

/-- A text within the limit that reads as a value. -/
def Carries (c : Codec) (t : Bytes) (v : Json) : Prop :=
  t.length ≤ c.longest ∧ c.shape.read t = .ok v

/-- A byte string holds `vs`: it starts with the frames of texts that carry them, in order, and
behind these no frame carries anything. -/
def Holds (c : Codec) (b : Bytes) (vs : List Json) : Prop :=
  ∃ texts rest, b = (texts.map frame).flatten ++ rest ∧ List.Forall₂ c.Carries texts vs ∧
    ∀ t v rest', rest = frame t ++ rest' → ¬ c.Carries t v

end Codec

namespace Decoder

variable {c : Codec} {d d' : Decoder} {v : Json} {e : IoError} {longest : Nat}

/-! ## Feeding -/

@[simp] theorem feed_nil (d : Decoder) : d.feed [] = d := by simp [feed]

@[simp] theorem feed_due (d : Decoder) (b : Bytes) : (d.feed b).due = d.due := rfl

@[simp] theorem feed_buffer (d : Decoder) (b : Bytes) : (d.feed b).buffer = d.buffer ++ b := rfl

theorem feed_feed (d : Decoder) (a b : Bytes) : (d.feed a).feed b = d.feed (a ++ b) := by
  simp [feed]

/-! ## Taking a head -/

theorem takeHead_of_due {n : Nat} (h : d.due = some n) : d.takeHead longest = .ok d := by
  simp [takeHead, h]

theorem takeHead_of_short (h : d.due = none) (hs : d.buffer.length < 4) :
    d.takeHead longest = .ok d := by
  simp only [takeHead, h, List.length_take]
  rw [if_pos (by omega)]

/-- A complete head is taken or refused, whatever stands behind it. -/
theorem takeHead_of_four (h : d.due = none) (hs : 4 ≤ d.buffer.length) :
    d.takeHead longest =
      if longest < Bytes.toNat (d.buffer.take 4) then .error .headTooLong
      else .ok ⟨some (Bytes.toNat (d.buffer.take 4)), d.buffer.drop 4⟩ := by
  simp only [takeHead, h, List.length_take]
  rw [if_neg (by omega)]

/-- Taking the head of a frame: it is there already, or not complete, or refused, or taken. -/
theorem takeHead_cases (d : Decoder) (longest : Nat) :
    (∃ n, d.due = some n ∧ d.takeHead longest = .ok d) ∨
    (d.due = none ∧ d.buffer.length < 4 ∧ d.takeHead longest = .ok d) ∨
    (d.due = none ∧ 4 ≤ d.buffer.length ∧ longest < Bytes.toNat (d.buffer.take 4) ∧
      d.takeHead longest = .error .headTooLong) ∨
    (d.due = none ∧ 4 ≤ d.buffer.length ∧ Bytes.toNat (d.buffer.take 4) ≤ longest ∧
      d.takeHead longest = .ok ⟨some (Bytes.toNat (d.buffer.take 4)), d.buffer.drop 4⟩) := by
  cases hd : d.due with
  | some n => exact .inl ⟨n, rfl, takeHead_of_due hd⟩
  | none =>
    rcases Nat.lt_or_ge d.buffer.length 4 with hs | hs
    · exact .inr (.inl ⟨rfl, hs, takeHead_of_short hd hs⟩)
    rcases Nat.lt_or_ge longest (Bytes.toNat (d.buffer.take 4)) with hl | hl
    · exact .inr (.inr (.inl ⟨rfl, hs, hl, by rw [takeHead_of_four hd hs, if_pos hl]⟩))
    · exact .inr (.inr (.inr ⟨rfl, hs, hl, by
        rw [takeHead_of_four hd hs, if_neg (Nat.not_lt.2 hl)]⟩))

theorem takeHead_feed_error (h : d.takeHead longest = .error e) (b : Bytes) :
    (d.feed b).takeHead longest = .error e := by
  rcases takeHead_cases d longest with ⟨n, -, hk⟩ | ⟨-, -, hk⟩ | ⟨hd, hs, hl, hk⟩ | ⟨-, -, -, hk⟩
  · simp [hk] at h
  · simp [hk] at h
  · rw [takeHead_of_four (by simp [hd]) (by simp; omega)]
    rw [hk] at h
    simpa [List.take_append_of_le_length hs, hl] using h
  · simp [hk] at h

theorem takeHead_feed_ok (h : d.takeHead longest = .ok d') (hd' : d'.due.isSome) (b : Bytes) :
    (d.feed b).takeHead longest = .ok (d'.feed b) := by
  rcases takeHead_cases d longest with ⟨n, hd, hk⟩ | ⟨hd, -, hk⟩ | ⟨-, -, -, hk⟩ | ⟨hd, hs, hl, hk⟩
  · rw [hk] at h
    cases h
    exact takeHead_of_due (n := n) (by simp [hd])
  · rw [hk] at h
    cases h
    simp [hd] at hd'
  · simp [hk] at h
  · rw [hk] at h
    cases h
    rw [takeHead_of_four (by simp [hd]) (by simp; omega)]
    simp [List.take_append_of_le_length hs, List.drop_append_of_le_length hs, Nat.not_lt.2 hl, feed]

/-! ## Taking a text -/

theorem takeText_eq_some {n : Nat} (h : d.due = some n) (hn : n ≤ d.buffer.length) :
    d.takeText = some (d.buffer.take n, ⟨none, d.buffer.drop n⟩) := by
  simp only [takeText, h, List.length_take]
  rw [if_neg (by omega)]

theorem takeText_eq_none {n : Nat} (h : d.due = some n) (hn : d.buffer.length < n) :
    d.takeText = none := by
  simp only [takeText, h, List.length_take]
  rw [if_pos (by omega)]

theorem takeText_inv {t : Bytes} (h : d.takeText = some (t, d')) :
    d.due = some t.length ∧ d.buffer = t ++ d'.buffer ∧ d'.due = none := by
  cases hd : d.due with
  | none => simp [takeText, hd] at h
  | some n =>
    rcases Nat.lt_or_ge d.buffer.length n with hn | hn
    · simp [takeText_eq_none hd hn] at h
    · rw [takeText_eq_some hd hn] at h
      cases h
      simp [Nat.min_eq_left hn]

theorem takeText_feed {t : Bytes} (h : d.takeText = some (t, d')) (b : Bytes) :
    (d.feed b).takeText = some (t, d'.feed b) := by
  obtain ⟨hd, hb, hd'⟩ := takeText_inv h
  rw [takeText_eq_some (n := t.length) (by simp [hd]) (by simp [hb])]
  simp [hb, feed, hd']

/-! ## Decoding -/

section
variable {α : Type} {read : Bytes → Except Json.Fault α} {w : α}

/-- What `decodeAs` gives, by what is taken. -/
theorem decodeAs_eq (read : Bytes → Except Json.Fault α) (longest : Nat) (d : Decoder) :
    d.decodeAs read longest = match d.takeHead longest with
      | .error e => (.error e, d)
      | .ok d => match d.takeText with
        | none => (.ok none, d)
        | some (t, d) => match read t with
          | .ok w => (.ok (some w), d)
          | .error fault => (.error (.unreadable fault), d) := rfl

theorem decodeAs_item_inv (h : d.decodeAs read longest = (.ok (some w), d')) :
    ∃ d₁ t, d.takeHead longest = .ok d₁ ∧ d₁.takeText = some (t, d') ∧ read t = .ok w := by
  rw [decodeAs_eq] at h
  split at h
  · cases h
  · rename_i d₁ hh
    split at h
    · cases h
    · rename_i t d₂ ht
      split at h
      · rename_i w hw
        cases h
        exact ⟨d₁, t, hh, ht, hw⟩
      · cases h

theorem decodeAs_error_inv (h : d.decodeAs read longest = (.error e, d')) :
    (d.takeHead longest = .error e ∧ d' = d) ∨
    ∃ d₁ t fault, d.takeHead longest = .ok d₁ ∧ d₁.takeText = some (t, d') ∧
      read t = .error fault ∧ e = .unreadable fault := by
  rw [decodeAs_eq] at h
  split at h
  · rename_i e' hh
    cases h
    exact .inl ⟨hh, rfl⟩
  · rename_i d₁ hh
    split at h
    · cases h
    · rename_i t d₂ ht
      split at h
      · cases h
      · rename_i fault hf
        cases h
        exact .inr ⟨d₁, t, fault, hh, ht, hf, rfl⟩

theorem decodeAs_none_inv (h : d.decodeAs read longest = (.ok none, d')) :
    d.takeHead longest = .ok d' ∧ d'.takeText = none := by
  rw [decodeAs_eq] at h
  split at h
  · cases h
  · rename_i d₁ hh
    split at h
    · rename_i ht
      cases h
      exact ⟨hh, ht⟩
    · split at h <;> cases h

theorem due_of_takeText {t : Bytes} (h : d.takeText = some (t, d')) : d.due.isSome := by
  simp [(takeText_inv h).1]

/-- An item that was found stays found. -/
theorem decodeAs_feed_item (h : d.decodeAs read longest = (.ok (some w), d')) (b : Bytes) :
    (d.feed b).decodeAs read longest = (.ok (some w), d'.feed b) := by
  obtain ⟨d₁, t, hh, ht, hw⟩ := decodeAs_item_inv h
  simp only [decodeAs_eq, takeHead_feed_ok hh (due_of_takeText ht), takeText_feed ht, hw]

/-- So does a bad frame. -/
theorem decodeAs_feed_error (h : d.decodeAs read longest = (.error e, d')) (b : Bytes) :
    (d.feed b).decodeAs read longest = (.error e, d'.feed b) := by
  rcases decodeAs_error_inv h with ⟨hh, rfl⟩ | ⟨d₁, t, fault, hh, ht, hw, rfl⟩
  · simp only [decodeAs_eq, takeHead_feed_error hh]
  · simp only [decodeAs_eq, takeHead_feed_ok hh (due_of_takeText ht), takeText_feed ht, hw]

theorem takeHead_takeHead (h : d.takeHead longest = .ok d') : d'.takeHead longest = .ok d' := by
  rcases takeHead_cases d longest with ⟨n, hd, hk⟩ | ⟨hd, hs, hk⟩ | ⟨-, -, -, hk⟩ | ⟨-, -, -, hk⟩
  all_goals rw [hk] at h; cases h
  · exact hk
  · exact hk
  · rfl

/-- While a decoder waits it may have taken a head; what it finds later is the same. -/
theorem decodeAs_feed_none (h : d.decodeAs read longest = (.ok none, d')) (b : Bytes) :
    (d.feed b).decodeAs read longest = (d'.feed b).decodeAs read longest := by
  obtain ⟨hh, -⟩ := decodeAs_none_inv h
  cases hd : d'.due with
  | some n =>
    have hs : d'.due.isSome := by simp [hd]
    simp only [decodeAs_eq, takeHead_feed_ok hh hs, takeHead_feed_ok (takeHead_takeHead hh) hs]
  | none =>
    rcases takeHead_cases d longest with ⟨n, _, hk⟩ | ⟨_, _, hk⟩ | ⟨-, -, -, hk⟩ | ⟨-, -, -, hk⟩
    all_goals rw [hk] at hh; cases hh
    · rfl
    · rfl
    · cases hd

/-- A decoder that waits goes on waiting until more bytes arrive. -/
theorem decodeAs_none_again (h : d.decodeAs read longest = (.ok none, d')) :
    d'.decodeAs read longest = (.ok none, d') := by
  have hd := decodeAs_feed_none h []
  rw [feed_nil, feed_nil] at hd
  rw [← hd, h]

theorem decodeEndAs_of_item (h : d.decodeAs read longest = (.ok (some w), d')) :
    d.decodeEndAs read longest = (.ok (some w), d') := by
  simp only [decodeEndAs, h]

theorem decodeEndAs_of_error (h : d.decodeAs read longest = (.error e, d')) :
    d.decodeEndAs read longest = (.error e, d') := by
  simp only [decodeEndAs, h]

theorem decodeEndAs_of_none (h : d.decodeAs read longest = (.ok none, d')) :
    d.decodeEndAs read longest =
      (if d'.buffer.isEmpty then .ok none else .error .cutOff, d') := by
  simp only [decodeEndAs, h]

/-! ## How much is left -/

/-- How much a decoder can still take: a head that was taken counts as much as its bytes. -/
def weight (d : Decoder) : Nat := d.buffer.length + if d.due.isSome then 4 else 0

theorem weight_takeHead (h : d.takeHead longest = .ok d') : d'.weight = d.weight := by
  rcases takeHead_cases d longest with ⟨n, _, hk⟩ | ⟨_, _, hk⟩ | ⟨-, -, -, hk⟩ | ⟨hd, hs, -, hk⟩
  all_goals rw [hk] at h; cases h
  · rfl
  · rfl
  · simp [weight, hd]; omega

/-- A text weighs as much as its frame. -/
theorem weight_takeText {t : Bytes} (h : d.takeText = some (t, d')) :
    d'.weight + 4 + t.length = d.weight := by
  obtain ⟨hd, hb, hd'⟩ := takeText_inv h
  simp [weight, hd, hd', hb]; omega

theorem weight_decodeAs (h : d.decodeAs read longest = (.ok (some w), d')) :
    d'.weight < d.weight := by
  obtain ⟨d₁, t, hh, ht, -⟩ := decodeAs_item_inv h
  rw [← weight_takeHead hh, ← weight_takeText ht]
  omega

theorem weight_decodeAs_none (h : d.decodeAs read longest = (.ok none, d')) :
    d'.weight = d.weight :=
  weight_takeHead (decodeAs_none_inv h).1

end

/-! ## Items -/

/-- The values that a decoder takes out of its buffer, until it has to wait or meets a frame that
it refuses. -/
def items (c : Codec) (d : Decoder) : List Json :=
  match _h : d.decode c with
  | (.ok (some v), d') => v :: d'.items c
  | _ => []
termination_by d.weight
decreasing_by exact weight_decodeAs _h

theorem items_of_item (h : d.decode c = (.ok (some v), d')) : d.items c = v :: d'.items c := by
  rw [items]
  split
  · rename_i w d₂ h₂
    rw [h] at h₂
    cases h₂
    rfl
  · rename_i hn
    exact (hn v d' h).elim

theorem items_of_error (h : d.decode c = (.error e, d')) : d.items c = [] := by
  rw [items]
  split
  · rename_i h₂
    rw [h] at h₂
    cases h₂
  · rfl

theorem items_of_none (h : d.decode c = (.ok none, d')) : d.items c = [] := by
  rw [items]
  split
  · rename_i h₂
    rw [h] at h₂
    cases h₂
  · rfl

theorem items_feed_item (h : d.decode c = (.ok (some v), d')) (b : Bytes) :
    (d.feed b).items c = v :: (d'.feed b).items c :=
  items_of_item (decodeAs_feed_item h b)

/-- Behind a bad frame nothing is found, whatever arrives. -/
theorem items_feed_error (h : d.decode c = (.error e, d')) (b : Bytes) : (d.feed b).items c = [] :=
  items_of_error (decodeAs_feed_error h b)

theorem items_feed_none (h : d.decode c = (.ok none, d')) (b : Bytes) :
    (d.feed b).items c = (d'.feed b).items c := by
  have hb := decodeAs_feed_none h b
  match hf : (d'.feed b).decode c with
  | (.ok (some v), d₂) => rw [items_of_item (hb.trans hf), items_of_item hf]
  | (.ok none, d₂) => rw [items_of_none (hb.trans hf), items_of_none hf]
  | (.error e, d₂) => rw [items_of_error (hb.trans hf), items_of_error hf]

/-- What was found stays found when more arrives. -/
theorem isPrefix_items_feed (c : Codec) (d : Decoder) (b : Bytes) :
    d.items c <+: (d.feed b).items c := by
  match h : d.decode c with
  | (.ok (some v), d') =>
    rw [items_of_item h, items_feed_item h]
    exact List.cons_prefix_cons.2 ⟨rfl, isPrefix_items_feed c d' b⟩
  | (.ok none, d') =>
    rw [items_of_none h]
    exact List.nil_prefix
  | (.error e, d') =>
    rw [items_of_error h]
    exact List.nil_prefix
termination_by d.weight
decreasing_by exact weight_decodeAs h

/-! ## What stops a decoder -/

/-- What a decoder comes to behind its items: a bad frame, or nothing but to wait. -/
def remainder (c : Codec) (d : Decoder) : Option IoError × Decoder :=
  match _h : d.decode c with
  | (.ok (some _), d') => d'.remainder c
  | (.ok none, d') => (none, d')
  | (.error e, d') => (some e, d')
termination_by d.weight
decreasing_by exact weight_decodeAs _h

theorem remainder_of_item (h : d.decode c = (.ok (some v), d')) :
    d.remainder c = d'.remainder c := by
  rw [remainder]
  split
  all_goals
    rename_i h₂
    rw [h] at h₂
    cases h₂
  rfl

theorem remainder_of_none (h : d.decode c = (.ok none, d')) : d.remainder c = (none, d') := by
  rw [remainder]
  split
  all_goals
    rename_i h₂
    rw [h] at h₂
    cases h₂
  rfl

theorem remainder_of_error (h : d.decode c = (.error e, d')) : d.remainder c = (some e, d') := by
  rw [remainder]
  split
  all_goals
    rename_i h₂
    rw [h] at h₂
    cases h₂
  rfl

theorem remainder_feed_item (h : d.decode c = (.ok (some v), d')) (b : Bytes) :
    (d.feed b).remainder c = (d'.feed b).remainder c :=
  remainder_of_item (decodeAs_feed_item h b)

theorem remainder_feed_error (h : d.decode c = (.error e, d')) (b : Bytes) :
    ((d.feed b).remainder c).1 = some e := by
  rw [remainder_of_error (decodeAs_feed_error h b)]

theorem remainder_feed_none (h : d.decode c = (.ok none, d')) (b : Bytes) :
    (d.feed b).remainder c = (d'.feed b).remainder c := by
  have hb := decodeAs_feed_none h b
  match hf : (d'.feed b).decode c with
  | (.ok (some v), d₂) => rw [remainder_of_item (hb.trans hf), remainder_of_item hf]
  | (.ok none, d₂) => rw [remainder_of_none (hb.trans hf), remainder_of_none hf]
  | (.error e, d₂) => rw [remainder_of_error (hb.trans hf), remainder_of_error hf]

theorem eq_empty_of_weight (h : d.weight = 0) : d = {} := by
  obtain ⟨due, buffer⟩ := d
  cases due with
  | some n => simp [weight] at h
  | none => simpa [weight] using h

/-! ## The longest prefix of good frames -/

/-- A decoder that has taken nothing yet. -/
def ofBytes (b : Bytes) : Decoder := ⟨none, b⟩

theorem takeHead_frame {t : Bytes} (ht : t.length < 0x100000000) (rest : Bytes) :
    (ofBytes (Codec.frame t ++ rest)).takeHead longest =
      if longest < t.length then .error .headTooLong else .ok ⟨some t.length, t ++ rest⟩ := by
  have head : (Codec.frame t ++ rest).take 4 = Bytes.ofWord t.length := by
    simp [Codec.frame, Bytes.ofWord]
  have tail : (Codec.frame t ++ rest).drop 4 = t ++ rest := by
    simp [Codec.frame, Bytes.ofWord]
  rw [takeHead_of_four rfl (by simp [ofBytes, Codec.length_frame]; omega)]
  simp only [ofBytes, head, tail, Bytes.toNat_ofWord ht]

/-- A frame within the limit is decoded as its text reads, and nothing behind it is touched. -/
theorem decodeAs_frame {α : Type} (read : Bytes → Except Json.Fault α) {t : Bytes}
    (ht : t.length ≤ c.longest) (rest : Bytes) :
    (ofBytes (Codec.frame t ++ rest)).decodeAs read c.longest =
      match read t with
      | .ok w => (.ok (some w), ofBytes rest)
      | .error fault => (.error (.unreadable fault), ofBytes rest) := by
  have hn : ¬ c.longest < t.length := Nat.not_lt.2 ht
  have hlt : t.length < 0x100000000 := Nat.lt_of_le_of_lt ht c.longest_lt
  simp only [decodeAs_eq, takeHead_frame hlt, if_neg hn]
  rw [takeText_eq_some (n := t.length) rfl (by simp)]
  simp only [List.take_left', List.drop_left', ofBytes]

theorem decode_frame {t : Bytes} (ht : t.length ≤ c.longest) (rest : Bytes) :
    (ofBytes (Codec.frame t ++ rest)).decode c =
      match c.shape.read t with
      | .ok v => (.ok (some v), ofBytes rest)
      | .error fault => (.error (.unreadable fault), ofBytes rest) := by
  rw [decode, decodeAs_frame c.shape.read ht]
  cases c.shape.read t <;> rfl

theorem items_frame {t : Bytes} (h : c.Carries t v) (rest : Bytes) :
    (ofBytes (Codec.frame t ++ rest)).items c = v :: (ofBytes rest).items c :=
  items_of_item (by rw [decode_frame h.1, h.2])

/-- An item of a byte string is carried by the frame at its front. -/
theorem frame_of_decode {b : Bytes} (h : (ofBytes b).decode c = (.ok (some v), d')) :
    ∃ t rest, b = Codec.frame t ++ rest ∧ c.Carries t v ∧ d' = ofBytes rest := by
  obtain ⟨d₁, t, hh, ht, hv⟩ := decodeAs_item_inv h
  obtain ⟨hd, hb, hd'⟩ := takeText_inv ht
  rcases takeHead_cases (ofBytes b) c.longest with
    ⟨n, hn, -⟩ | ⟨hn, -, hk⟩ | ⟨-, -, -, hk⟩ | ⟨hn, hs, hl, hk⟩
  · cases hn
  · rw [hk] at hh
    cases hh
    rw [hn] at hd
    cases hd
  · simp [hk] at hh
  · rw [hk] at hh
    cases hh
    have len : Bytes.toNat (b.take 4) = t.length := by simpa [ofBytes] using hd
    have word : b.take 4 = Bytes.ofWord t.length := by
      rw [← len]
      exact (Bytes.ofWord_toNat (by rw [List.length_take]; exact Nat.min_eq_left hs)).symm
    refine ⟨t, d'.buffer, ?_, ⟨by rw [← len]; exact hl, hv⟩, ?_⟩
    · have split : b = b.take 4 ++ b.drop 4 := (List.take_append_drop 4 b).symm
      have tail : b.drop 4 = t ++ d'.buffer := hb
      rw [split, word, tail, Codec.frame, List.append_assoc]
    · cases d'
      simp_all [ofBytes]

/-- The items of a byte string are what its longest prefix of good frames carries. -/
theorem holds_items (c : Codec) (b : Bytes) : c.Holds b ((ofBytes b).items c) := by
  match h : (ofBytes b).decode c with
  | (.ok (some v), d') =>
    obtain ⟨t, rest, hb, hc, rfl⟩ := frame_of_decode h
    obtain ⟨texts, rest', hr, hall, hstop⟩ := holds_items c rest
    rw [items_of_item h]
    exact ⟨t :: texts, rest', by simp [hb, hr], .cons hc hall, hstop⟩
  | (.ok none, d') =>
    rw [items_of_none h]
    refine ⟨[], b, rfl, .nil, fun t v rest' hb hc => ?_⟩
    rw [hb, decode_frame hc.1, hc.2] at h
    cases h
  | (.error e, d') =>
    rw [items_of_error h]
    refine ⟨[], b, rfl, .nil, fun t v rest' hb hc => ?_⟩
    rw [hb, decode_frame hc.1, hc.2] at h
    cases h
termination_by b.length
decreasing_by
  rw [hb, List.length_append, Codec.length_frame]
  omega

theorem items_frames {texts : List Bytes} {vs : List Json} (h : List.Forall₂ c.Carries texts vs)
    (rest : Bytes) :
    (ofBytes ((texts.map Codec.frame).flatten ++ rest)).items c =
      vs ++ (ofBytes rest).items c := by
  induction h with
  | nil => rfl
  | cons hc _ ih => simp [items_frame hc, ih]

/-- Behind frames that are all good a decoder holds nothing. -/
theorem remainder_frames {texts : List Bytes} {vs : List Json}
    (h : List.Forall₂ c.Carries texts vs) :
    (ofBytes (texts.map Codec.frame).flatten).remainder c = (none, {}) := by
  induction h with
  | nil => exact remainder_of_none rfl
  | cons hc _ ih =>
    rw [List.map_cons, List.flatten_cons, ← ih]
    exact remainder_of_item (by rw [decode_frame hc.1, hc.2])

end Decoder

/-- What a byte string holds is determined by it. -/
theorem Codec.Holds.eq_items {c : Codec} {b : Bytes} {vs : List Json} (h : c.Holds b vs) :
    vs = (Decoder.ofBytes b).items c := by
  obtain ⟨texts, rest, rfl, hall, hstop⟩ := h
  have none_left : (Decoder.ofBytes rest).items c = [] := by
    match hd : (Decoder.ofBytes rest).decode c with
    | (.ok (some v), d') =>
      obtain ⟨t, rest', hb, hc, -⟩ := Decoder.frame_of_decode hd
      exact (hstop t v rest' hb hc).elim
    | (.ok none, d') => exact Decoder.items_of_none hd
    | (.error e, d') => exact Decoder.items_of_error hd
  rw [Decoder.items_frames hall, none_left, List.append_nil]

end WorkerLink
