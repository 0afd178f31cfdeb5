import WorkerLink.Proofs.Frame.Chunking

/-!
# Where a stream ends

A stream is complete frames with something behind them (`Codec.Framed`). If all of its frames
decode, its end is clean when nothing is behind them, and an error when the front of another frame
is. The exception is a head that stands alone: it has been taken by then, no byte is left over, and
the end passes for a clean one although a text was due (`clean_end_iff`, `clean_end_behind_head`).
-/

namespace WorkerLink

/-- A word of four bytes fits four bytes. -/
theorem Bytes.toNat_lt_of_four {b : Bytes} (h : b.length = 4) : b.toNat < 0x100000000 := by
  match b, h with
  | [w, x, y, z], _ =>
    have hw := w.toNat_lt
    have hx := x.toNat_lt
    have hy := y.toNat_lt
    have hz := z.toNat_lt
    simp only [toNat, List.foldl_cons, List.foldl_nil]
    omega

namespace Codec

variable {t t' b rest rest' tail : Bytes} {longest : Nat}

/-! ## Complete frames and the front of one -/

/-- A byte string is complete frames and, behind them, `tail`. -/
inductive Framed (tail : Bytes) : Bytes → Prop where
  | here : Framed tail tail
  | behind {t b : Bytes} (ht : t.length < 0x100000000) (h : Framed tail b) :
    Framed tail (frame t ++ b)

/-- No frame is complete at the front of a byte string. -/
def IsCut (b : Bytes) : Prop := b.length < 4 + Bytes.toNat (b.take 4)

theorem take_frame (t rest : Bytes) : (frame t ++ rest).take 4 = Bytes.ofWord t.length := rfl

theorem drop_frame (t rest : Bytes) : (frame t ++ rest).drop 4 = t ++ rest := rfl

theorem not_isCut_frame (ht : t.length < 0x100000000) (rest : Bytes) :
    ¬ IsCut (frame t ++ rest) := by
  rw [IsCut, take_frame, Bytes.toNat_ofWord ht, List.length_append, length_frame]
  omega

theorem exists_frame_of_not_isCut (h : ¬ IsCut b) :
    ∃ t rest, t.length < 0x100000000 ∧ b = frame t ++ rest := by
  rw [IsCut, Nat.not_lt] at h
  have hfour : (b.take 4).length = 4 := by
    rw [List.length_take]
    omega
  have hlength : ((b.drop 4).take (Bytes.toNat (b.take 4))).length = Bytes.toNat (b.take 4) := by
    rw [List.length_take, List.length_drop]
    omega
  refine ⟨(b.drop 4).take (Bytes.toNat (b.take 4)), (b.drop 4).drop (Bytes.toNat (b.take 4)), ?_,
    ?_⟩
  · rw [hlength]
    exact Bytes.toNat_lt_of_four hfour
  · rw [frame, hlength, Bytes.ofWord_toNat hfour, List.append_assoc, List.take_append_drop,
      List.take_append_drop]

theorem frame_append_inj (ht : t.length < 0x100000000) (ht' : t'.length < 0x100000000)
    (h : frame t ++ rest = frame t' ++ rest') : t = t' ∧ rest = rest' := by
  have hword := congrArg (List.take 4) h
  rw [take_frame, take_frame] at hword
  have hlength : t.length = t'.length := by
    rw [← Bytes.toNat_ofWord ht, hword, Bytes.toNat_ofWord ht']
  have htext := congrArg (List.drop 4) h
  rw [drop_frame, drop_frame] at htext
  exact List.append_inj htext hlength

theorem Framed.eq_of_isCut (h : Framed tail b) (hb : IsCut b) : tail = b := by
  cases h with
  | here => rfl
  | behind ht _ => exact (not_isCut_frame ht _ hb).elim

theorem Framed.of_frame (ht : t.length < 0x100000000) (h : Framed tail (frame t ++ b)) :
    tail = frame t ++ b ∨ Framed tail b := by
  generalize hf : frame t ++ b = all at h
  cases h with
  | here => exact .inl rfl
  | behind ht' h =>
    obtain ⟨-, rfl⟩ := frame_append_inj ht ht' hf
    exact .inr h

theorem framed_frame (ht : t.length < 0x100000000) (hc : IsCut tail) :
    Framed tail (frame t ++ b) ↔ Framed tail b := by
  refine ⟨fun h => ?_, .behind ht⟩
  rcases h.of_frame ht with rfl | hb
  · exact (not_isCut_frame ht b hc).elim
  · exact hb

theorem isCut_nil : IsCut [] := Nat.zero_lt_succ 3

/-- A head of a text that is not empty, alone. -/
def IsHead (longest : Nat) (head : Bytes) : Prop :=
  head.length = 4 ∧ 0 < head.toNat ∧ head.toNat ≤ longest

theorem IsHead.isCut (h : IsHead longest tail) : IsCut tail := by
  obtain ⟨hlength, hpos, -⟩ := h
  rw [IsCut, List.take_of_length_le (Nat.le_of_eq hlength)]
  omega

/-- A byte string ends directly behind a head within the limit, before a text that is due. -/
def EndsAtHead (longest : Nat) (b : Bytes) : Prop := ∃ head, IsHead longest head ∧ Framed head b

theorem endsAtHead_frame (ht : t.length < 0x100000000) :
    EndsAtHead longest (frame t ++ b) ↔ EndsAtHead longest b :=
  exists_congr fun _ => and_congr_right fun hh => framed_frame ht hh.isCut

theorem endsAtHead_of_isCut (hc : IsCut b) : EndsAtHead longest b ↔ IsHead longest b := by
  refine ⟨fun ⟨head, hh, hf⟩ => ?_, fun hh => ⟨b, hh, .here⟩⟩
  rwa [← hf.eq_of_isCut hc]

variable {α : Type} {read : Bytes → Except Json.Fault α}

/-- Every complete frame of a byte string is within the limit, and its text can be read. -/
def FramesDecode (read : Bytes → Except Json.Fault α) (longest : Nat) (b : Bytes) : Prop :=
  ∀ t rest, t.length < 0x100000000 → Framed (frame t ++ rest) b →
    t.length ≤ longest ∧ ∃ w, read t = .ok w

theorem FramesDecode.of_isCut (hc : IsCut b) : FramesDecode read longest b := by
  intro t rest ht hf
  rw [← hf.eq_of_isCut hc] at hc
  exact (not_isCut_frame ht rest hc).elim

theorem FramesDecode.frame (ht : t.length < 0x100000000) (hle : t.length ≤ longest)
    (hr : ∃ w, read t = .ok w) (h : FramesDecode read longest b) :
    FramesDecode read longest (frame t ++ b) := by
  intro t' rest ht' hf
  rcases hf.of_frame ht with heq | hb
  · obtain ⟨rfl, -⟩ := frame_append_inj ht' ht heq
    exact ⟨hle, hr⟩
  · exact h t' rest ht' hb

end Codec

namespace Decoder

open Codec (Framed IsCut IsHead EndsAtHead FramesDecode)

variable {α : Type} {read : Bytes → Except Json.Fault α} {c : Codec} {longest : Nat} {b t : Bytes}
  {d : Decoder}

/-! ## The end of a stream -/

/-- What the end of a stream is reported as, once all of it has arrived and been decoded. -/
def ending (read : Bytes → Except Json.Fault α) (longest : Nat) (b : Bytes) :
    Except IoError (Option α) :=
  (((ofBytes b).drain read longest).2.decodeEndAs read longest).1

/-- A frame that decodes does not show at the end of the stream. -/
theorem ending_frame (ht : t.length ≤ c.longest) {w : α} (hw : read t = .ok w) (b : Bytes) :
    ending read c.longest (Codec.frame t ++ b) = ending read c.longest b := by
  have hd := decodeAs_frame read ht b
  rw [hw] at hd
  have hl : isLast ((ofBytes (Codec.frame t ++ b)).decodeAs read c.longest).1 = false := by
    rw [hd]
    rfl
  rw [ending, drain_of_not_isLast hl, hd]
  rfl

/-- A call on the front of a frame finds no head, refuses a head, or takes one and has to wait. -/
theorem decodeAs_cut (read : Bytes → Except Json.Fault α) (longest : Nat) (hc : IsCut b) :
    (b.length < 4 ∧ (ofBytes b).decodeAs read longest = (.ok none, ofBytes b)) ∨
    (4 ≤ b.length ∧ longest < Bytes.toNat (b.take 4) ∧
      (ofBytes b).decodeAs read longest = (.error .headTooLong, ofBytes b)) ∨
    (4 ≤ b.length ∧ Bytes.toNat (b.take 4) ≤ longest ∧
      (ofBytes b).decodeAs read longest =
        (.ok none, ⟨some (Bytes.toNat (b.take 4)), b.drop 4⟩)) := by
  rcases takeHead_cases (ofBytes b) longest with
    ⟨n, hn, -⟩ | ⟨-, hs, hk⟩ | ⟨-, hs, hl, hk⟩ | ⟨-, hs, hl, hk⟩
  · cases hn
  · refine .inl ⟨hs, ?_⟩
    rw [decodeAs_eq, hk]
    rfl
  · refine .inr (.inl ⟨hs, hl, ?_⟩)
    rw [decodeAs_eq, hk]
  · have hfour : 4 ≤ b.length := hs
    have htext : takeText ⟨some (Bytes.toNat (b.take 4)), b.drop 4⟩ = none := by
      refine takeText_eq_none rfl ?_
      rw [IsCut] at hc
      rw [List.length_drop]
      omega
    refine .inr (.inr ⟨hfour, hl, ?_⟩)
    simp only [decodeAs_eq, hk]
    simp only [ofBytes, htext]

/-- If all that has arrived has to wait, the end looks only at what is left over. -/
theorem ending_of_none (hd : (ofBytes b).decodeAs read longest = (.ok none, d)) :
    ending read longest b = if d.buffer.isEmpty then .ok none else .error .cutOff := by
  rw [ending, drain_of_none hd, decodeEndAs_of_none (decodeAs_none_again hd)]

/-- The end behind the front of a frame: a head alone passes for a clean end. -/
theorem ending_cut (read : Bytes → Except Json.Fault α) (longest : Nat) (hc : IsCut b) :
    (ending read longest b = .ok none ∧ (b = [] ∨ IsHead longest b)) ∨
    ((∃ e, ending read longest b = .error e) ∧ b ≠ [] ∧ ¬ IsHead longest b) := by
  rcases decodeAs_cut read longest hc with ⟨hshort, hd⟩ | ⟨hfour, hlong, hd⟩ | ⟨hfour, hle, hd⟩
  · -- not even a head: what there is is left over
    rw [ending_of_none hd]
    cases b with
    | nil => exact .inl ⟨rfl, .inl rfl⟩
    | cons x b =>
      refine .inr ⟨⟨.cutOff, rfl⟩, List.cons_ne_nil x b, fun hh => ?_⟩
      rw [hh.1] at hshort
      exact Nat.lt_irrefl _ hshort
  · -- a head that is refused, now and at the end
    rw [ending, drain_of_tooLong hd, decodeEndAs_of_error hd]
    refine .inr ⟨⟨.headTooLong, rfl⟩, fun hb => ?_, fun hh => ?_⟩
    · rw [hb] at hfour
      cases hfour
    · rw [List.take_of_length_le (Nat.le_of_eq hh.1)] at hlong
      exact Nat.lt_irrefl _ (Nat.lt_of_lt_of_le hlong hh.2.2)
  · -- a head that was taken: only what is behind it is left over
    rw [ending_of_none hd]
    rcases Nat.eq_or_lt_of_le hfour with heq | hlt
    · have hempty : b.drop 4 = [] := List.drop_eq_nil_of_le (Nat.le_of_eq heq.symm)
      have hwhole : b.take 4 = b := List.take_of_length_le (Nat.le_of_eq heq.symm)
      rw [IsCut, hwhole] at hc
      rw [hwhole] at hle
      refine .inl ⟨?_, .inr ⟨heq.symm, by omega, hle⟩⟩
      simp only [hempty, List.isEmpty_nil, if_true]
    · have hmore : (b.drop 4).isEmpty = false := by
        rw [List.isEmpty_eq_false_iff, Ne, List.drop_eq_nil_iff]
        exact Nat.not_le.2 hlt
      refine .inr ⟨⟨.cutOff, ?_⟩, fun hb => ?_, fun hh => ?_⟩
      · simp only [hmore, Bool.false_eq_true, if_false]
      · rw [hb] at hlt
        cases hlt
      · rw [hh.1] at hlt
        exact Nat.lt_irrefl _ hlt

/-- The end of a stream of which all frames decode: clean if it is whole or ends at a head, and an
error otherwise. -/
theorem ending_cases (b : Bytes) (h : FramesDecode read c.longest b) :
    (ending read c.longest b = .ok none ∧ (Framed [] b ∨ EndsAtHead c.longest b)) ∨
    ((∃ e, ending read c.longest b = .error e) ∧ ¬ Framed [] b ∧ ¬ EndsAtHead c.longest b) := by
  induction hn : b.length using Nat.strongRecOn generalizing b with
  | ind n ih =>
    subst hn
    by_cases hc : IsCut b
    · have hwhole : Framed [] b ↔ b = [] :=
        ⟨fun hf => (hf.eq_of_isCut hc).symm, fun hb => hb ▸ .here⟩
      rw [hwhole, Codec.endsAtHead_of_isCut hc]
      exact ending_cut read c.longest hc
    · obtain ⟨t, rest, ht, rfl⟩ := Codec.exists_frame_of_not_isCut hc
      obtain ⟨hle, w, hw⟩ := h t rest ht .here
      have hlt : rest.length < (Codec.frame t ++ rest).length := by
        rw [List.length_append, Codec.length_frame]
        omega
      rw [ending_frame hle hw, Codec.framed_frame ht Codec.isCut_nil, Codec.endsAtHead_frame ht]
      exact ih _ hlt rest (fun t' rest' ht' hf => h t' rest' ht' (.behind ht hf)) rfl

/-- However a stream is cut into chunks, if all of its frames decode: decoding it as it arrives and
then at its end comes to a clean end exactly if the stream is complete frames, or ends directly
behind the head of a text that is due. At any other place inside a frame its end is an error. -/
theorem clean_end_iff {α : Type} (read : Bytes → Except Json.Fault α) (limit : Nat)
    {chunks : List Bytes} (h : FramesDecode read (Codec.longest { limit }) chunks.flatten) :
    let longest := Codec.longest { limit }
    let found := ((readChunks read longest {} chunks).2.decodeEndAs read longest).1
    (found = .ok none ↔ Framed [] chunks.flatten ∨ EndsAtHead longest chunks.flatten) ∧
      (¬ (Framed [] chunks.flatten ∨ EndsAtHead longest chunks.flatten) →
        ∃ e, found = .error e) := by
  intro longest found
  have hfound : found = ending read longest chunks.flatten := by
    rw [ending, ← (readChunks_eq read longest chunks).1]
  rw [hfound]
  rcases ending_cases chunks.flatten h with ⟨hclean, hends⟩ | ⟨⟨e, herror⟩, hwhole, hhead⟩
  · exact ⟨iff_of_true hclean hends, fun hn => (hn hends).elim⟩
  · refine ⟨iff_of_false ?_ ?_, fun _ => ⟨e, herror⟩⟩
    · rw [herror]
      exact nofun
    · rintro (hf | hf)
      · exact hwhole hf
      · exact hhead hf

/-- A number, and behind it a frame that breaks off inside its text. -/
theorem clean_end_iff_of_cutText :
    let chunks : List Bytes := [[0, 0, 0, 1, 0x37, 0, 0], [0, 2, 0x31]]
    let read := Json.Shape.word.read
    let longest := Codec.longest { limit := 8 }
    FramesDecode read longest chunks.flatten ∧
      ∃ e, ((readChunks read longest {} chunks).2.decodeEndAs read longest).1 = .error e := by
  intro chunks read longest
  have hcut : IsCut [0, 0, 0, 2, 0x31] := by
    unfold IsCut
    decide
  have htext : ([0x37] : Bytes).length < 0x100000000 := by decide
  have hframes : FramesDecode read longest chunks.flatten :=
    .frame htext (by decide) ⟨.int 7, rfl⟩ (.of_isCut hcut)
  refine ⟨hframes, (clean_end_iff read 8 hframes).2 ?_⟩
  rintro (hwhole | hhead)
  · have hnil := ((Codec.framed_frame htext Codec.isCut_nil).1 hwhole).eq_of_isCut hcut
    cases hnil
  · have halone := (Codec.endsAtHead_of_isCut hcut).1 ((Codec.endsAtHead_frame htext).1 hhead)
    cases halone.1

/-- A number, and behind it a head alone: a stream that is not whole comes to a clean end. -/
theorem clean_end_behind_head :
    let chunks : List Bytes := [[0, 0, 0, 1, 0x37, 0, 0], [0, 2]]
    let read := Json.Shape.word.read
    let longest := Codec.longest { limit := 8 }
    FramesDecode read longest chunks.flatten ∧ ¬ Framed [] chunks.flatten ∧
      ((readChunks read longest {} chunks).2.decodeEndAs read longest).1 = .ok none := by
  intro chunks read longest
  have hhead : IsHead longest [0, 0, 0, 2] := by
    unfold IsHead
    decide
  have htext : ([0x37] : Bytes).length < 0x100000000 := by decide
  have hread : read [0x37] = .ok (.int 7) := rfl
  refine ⟨.frame htext (by decide) ⟨_, hread⟩ (.of_isCut hhead.isCut), fun hwhole => ?_, ?_⟩
  · have hnil := ((Codec.framed_frame htext Codec.isCut_nil).1 hwhole).eq_of_isCut hhead.isCut
    cases hnil
  · rw [(readChunks_eq read longest chunks).1]
    have hframe : ending read longest chunks.flatten = ending read longest [0, 0, 0, 2] :=
      ending_frame (by decide) hread [0, 0, 0, 2]
    rcases ending_cut read longest hhead.isCut with ⟨hclean, -⟩ | ⟨-, -, hnot⟩
    · exact hframe.trans hclean
    · exact (hnot hhead).elim

end Decoder

end WorkerLink
