import Mathlib.Logic.Function.Iterate
import WorkerLink.Proofs.Frame.Decoding

/-!
# A stream that arrives in chunks

After each chunk a reader calls `decodeAs` until a call has to wait or refuses a head (`drain`). A
call that is not the last of its loop has taken one whole frame (`decodeAs_cases`), so every loop
ends (`exists_isLast`) and the bytes behind a bad frame are read as if it were not there. How a
stream is cut does not show: reading it chunk by chunk gives what reading it at once gives
(`readChunks_eq`).
-/

namespace WorkerLink.Decoder

variable {α : Type} {read : Bytes → Except Json.Fault α} {longest : Nat} {d d' : Decoder}
  {r : Except IoError (Option α)} {b t : Bytes}

/-! ## One call -/

/-- What has arrived and belongs to no text that was taken: a head that was taken is counted in. -/
def undecoded (d : Decoder) : Bytes := d.due.elim [] Bytes.ofWord ++ d.buffer

@[simp] theorem undecoded_ofBytes (b : Bytes) : (ofBytes b).undecoded = b := rfl

theorem length_undecoded (d : Decoder) : d.undecoded.length = d.weight := by
  cases hd : d.due <;> simp [undecoded, weight, hd, Bytes.length_ofWord, Nat.add_comm]

theorem undecoded_takeHead (h : d.takeHead longest = .ok d') : d'.undecoded = d.undecoded := by
  rcases takeHead_cases d longest with ⟨n, _, hk⟩ | ⟨_, _, hk⟩ | ⟨-, -, -, hk⟩ | ⟨hd, hs, -, hk⟩
  all_goals rw [hk] at h; cases h
  · rfl
  · rfl
  · have word : Bytes.ofWord (Bytes.toNat (d.buffer.take 4)) = d.buffer.take 4 :=
      Bytes.ofWord_toNat (by rw [List.length_take]; exact Nat.min_eq_left hs)
    simp [undecoded, hd, word]

/-- Taking a text takes its whole frame and leaves a decoder that has taken nothing yet. -/
theorem undecoded_takeText (h : d.takeText = some (t, d')) :
    d.undecoded = Codec.frame t ++ d'.buffer ∧ d' = ofBytes d'.buffer := by
  obtain ⟨hd, hb, hd'⟩ := takeText_inv h
  constructor
  · simp [undecoded, hd, hb, Codec.frame]
  · rw [ofBytes, ← hd']

/-- What a call gives for a text that it takes. -/
def readAs (read : Bytes → Except Json.Fault α) (t : Bytes) : Except IoError (Option α) :=
  match read t with
  | .ok w => .ok (some w)
  | .error fault => .error (.unreadable fault)

/-- Whether a call is the last of its loop: it has to wait, or refuses a head. -/
def isLast : Except IoError (Option α) → Bool
  | .ok none | .error .headTooLong => true
  | _ => false

theorem isLast_readAs (read : Bytes → Except Json.Fault α) (t : Bytes) :
    isLast (readAs read t) = false := by
  unfold readAs
  cases read t <;> rfl

/-- What a call can do: take a frame and read its text, wait and take no more than a head, or refuse
a head and take nothing. -/
theorem decodeAs_cases (read : Bytes → Except Json.Fault α) (longest : Nat) (d : Decoder) :
    (∃ t rest, d.undecoded = Codec.frame t ++ rest ∧
      d.decodeAs read longest = (readAs read t, ofBytes rest)) ∨
    (∃ d', d'.undecoded = d.undecoded ∧ d.decodeAs read longest = (.ok none, d')) ∨
    d.decodeAs read longest = (.error .headTooLong, d) := by
  cases hh : d.takeHead longest with
  | error e =>
    right; right
    rcases takeHead_cases d longest with ⟨n, -, hk⟩ | ⟨-, -, hk⟩ | ⟨-, -, -, hk⟩ | ⟨-, -, -, hk⟩
    all_goals rw [hk] at hh; cases hh
    simp only [decodeAs_eq, hk]
  | ok d₁ =>
    have hu := undecoded_takeHead hh
    cases ht : d₁.takeText with
    | none =>
      right; left
      exact ⟨d₁, hu, by simp only [decodeAs_eq, hh, ht]⟩
    | some p =>
      left
      obtain ⟨t, d'⟩ := p
      obtain ⟨hf, hd'⟩ := undecoded_takeText ht
      refine ⟨t, d'.buffer, hu.symm.trans hf, ?_⟩
      rw [← hd']
      cases hr : read t <;> simp only [decodeAs_eq, hh, ht, hr, readAs]

/-- A call that is not the last of its loop has taken one whole frame. -/
theorem decodeAs_of_not_isLast (h : isLast (d.decodeAs read longest).1 = false) :
    ∃ t rest, d.undecoded = Codec.frame t ++ rest ∧
      d.decodeAs read longest = (readAs read t, ofBytes rest) := by
  rcases decodeAs_cases read longest d with htook | ⟨d', -, hwait⟩ | hrefuse
  · exact htook
  · rw [hwait] at h
    cases h
  · rw [hrefuse] at h
    cases h

/-- The last call of a loop waits and takes no more than a head, or refuses a head. -/
theorem decodeAs_of_isLast (h : ¬ isLast (d.decodeAs read longest).1 = false) :
    (∃ d', d'.undecoded = d.undecoded ∧ d.decodeAs read longest = (.ok none, d')) ∨
      d.decodeAs read longest = (.error .headTooLong, d) := by
  rcases decodeAs_cases read longest d with ⟨t, rest, -, hd⟩ | hlast
  · rw [hd, isLast_readAs] at h
    exact (h rfl).elim
  · exact hlast

theorem weight_of_not_isLast (h : isLast (d.decodeAs read longest).1 = false) :
    (d.decodeAs read longest).2.weight + 4 ≤ d.weight := by
  obtain ⟨t, rest, hu, hd⟩ := decodeAs_of_not_isLast h
  rw [hd, ← length_undecoded, ← length_undecoded, hu, undecoded_ofBytes, List.length_append,
    Codec.length_frame]
  omega

/-- What a call gives that is not the last of its loop it gives whatever stands behind. -/
theorem decodeAs_feed_of_not_isLast (h : isLast (d.decodeAs read longest).1 = false) (b : Bytes) :
    (d.feed b).decodeAs read longest =
      ((d.decodeAs read longest).1, (d.decodeAs read longest).2.feed b) := by
  match hd : d.decodeAs read longest with
  | (.ok (some w), d') => exact decodeAs_feed_item hd b
  | (.error e, d') => exact decodeAs_feed_error hd b
  | (.ok none, d') =>
    rw [hd] at h
    cases h

/-! ## A loop of calls -/

/-- What a call reports: an item or an error, and nothing if it has to wait. -/
def report : Except IoError (Option α) → Option (Except IoError α)
  | .ok none => none
  | .ok (some w) => some (.ok w)
  | .error e => some (.error e)

/-- Calls until one is the last: what they report, and what they leave. -/
def drain (read : Bytes → Except Json.Fault α) (longest : Nat) (d : Decoder) :
    List (Except IoError α) × Decoder :=
  let call := d.decodeAs read longest
  if _h : isLast call.1 = false then
    let rest := call.2.drain read longest
    ((report call.1).toList ++ rest.1, rest.2)
  else ((report call.1).toList, call.2)
termination_by d.weight
decreasing_by
  exact Nat.lt_of_lt_of_le (Nat.lt_add_of_pos_right (by omega)) (weight_of_not_isLast _h)

theorem drain_of_not_isLast (h : isLast (d.decodeAs read longest).1 = false) :
    d.drain read longest =
      ((report (d.decodeAs read longest).1).toList ++
        ((d.decodeAs read longest).2.drain read longest).1,
        ((d.decodeAs read longest).2.drain read longest).2) := by
  rw [drain]
  exact dif_pos h

theorem drain_of_isLast (h : isLast (d.decodeAs read longest).1 = true) :
    d.drain read longest =
      ((report (d.decodeAs read longest).1).toList, (d.decodeAs read longest).2) := by
  rw [drain]
  exact dif_neg (by rw [h]; exact Bool.noConfusion)

theorem drain_of_none (h : d.decodeAs read longest = (.ok none, d')) :
    d.drain read longest = ([], d') := by
  rw [drain_of_isLast (by rw [h]; rfl), h]
  rfl

theorem drain_of_tooLong (h : d.decodeAs read longest = (.error .headTooLong, d')) :
    d.drain read longest = ([.error .headTooLong], d') := by
  rw [drain_of_isLast (by rw [h]; rfl), h]
  rfl

/-- A loop goes by what its first call does. -/
theorem drain_congr {d₁ d₂ : Decoder}
    (h : d₁.decodeAs read longest = d₂.decodeAs read longest) :
    d₁.drain read longest = d₂.drain read longest := by
  rw [drain.eq_def _ _ d₁, drain.eq_def _ _ d₂, h]

/-- The decoder after so many calls. -/
def afterCalls (read : Bytes → Except Json.Fault α) (longest n : Nat) (d : Decoder) : Decoder :=
  (fun d => (d.decodeAs read longest).2)^[n] d

/-- Every loop ends, after no more calls than there are heads in what is undecoded. -/
theorem exists_isLast (read : Bytes → Except Json.Fault α) (longest : Nat) (d : Decoder) :
    ∃ n ≤ d.undecoded.length / 4,
      isLast ((d.afterCalls read longest n).decodeAs read longest).1 = true ∧
      ∀ k < n, isLast ((d.afterCalls read longest k).decodeAs read longest).1 = false := by
  rw [length_undecoded]
  induction d using drain.induct read longest with
  | case1 d call hl ih =>
    have hweight : call.2.weight + 4 ≤ d.weight := weight_of_not_isLast hl
    obtain ⟨n, hn, hlast, hbefore⟩ := ih
    refine ⟨n + 1, by omega, hlast, fun k hk => ?_⟩
    cases k with
    | zero => exact hl
    | succ k => exact hbefore k (Nat.lt_of_succ_lt_succ hk)
  | case2 d call hl => exact ⟨0, Nat.zero_le _, Bool.of_not_eq_false hl, nofun⟩

/-! ## Up to the first head that is refused -/

/-- What is reported up to the first head that is refused. -/
def upToRefusal : List (Except IoError α) → List (Except IoError α)
  | [] => []
  | .error .headTooLong :: _ => [.error .headTooLong]
  | r :: rs => r :: upToRefusal rs

theorem upToRefusal_report (h : isLast r = false) (rs : List (Except IoError α)) :
    upToRefusal ((report r).toList ++ rs) = (report r).toList ++ upToRefusal rs := by
  match r with
  | .ok (some w) => rfl
  | .ok none => cases h
  | .error e => cases e <;> first | rfl | cases h

/-- A loop reports a refused head at its end only. -/
theorem upToRefusal_drain (d : Decoder) :
    upToRefusal (d.drain read longest).1 = (d.drain read longest).1 := by
  induction d using drain.induct read longest with
  | case1 d call hl ih => rw [drain_of_not_isLast hl, upToRefusal_report hl, ih]
  | case2 d call hl =>
    rcases decodeAs_of_isLast hl with ⟨d', -, hd⟩ | hd
    · rw [drain_of_none hd]
      rfl
    · rw [drain_of_tooLong hd]
      rfl

/-- A loop, more bytes and another loop leave what one loop over all bytes leaves, and report the
same up to the first head that is refused. -/
theorem drain_feed (d : Decoder) (b : Bytes) :
    (((d.drain read longest).2.feed b).drain read longest).2 = ((d.feed b).drain read longest).2 ∧
    ∀ more, upToRefusal ((d.drain read longest).1 ++
        ((((d.drain read longest).2.feed b).drain read longest).1 ++ more)) =
      upToRefusal (((d.feed b).drain read longest).1 ++ more) := by
  induction d using drain.induct read longest with
  | case1 d call hl ih =>
    -- the first call takes the same frame, whether there is more behind it or not
    have hfeed := decodeAs_feed_of_not_isLast hl b
    have hl' : isLast ((d.feed b).decodeAs read longest).1 = false := by
      rw [hfeed]
      exact hl
    obtain ⟨hleft, hfound⟩ := ih
    rw [drain_of_not_isLast hl, drain_of_not_isLast hl', hfeed]
    refine ⟨hleft, fun more => ?_⟩
    rw [List.append_assoc, List.append_assoc, upToRefusal_report hl, upToRefusal_report hl,
      hfound]
  | case2 d call hl =>
    rcases decodeAs_of_isLast hl with ⟨d', -, hd⟩ | hd
    · have hloop : (d'.feed b).drain read longest = (d.feed b).drain read longest :=
        (drain_congr (decodeAs_feed_none hd b)).symm
      rw [drain_of_none hd, hloop]
      exact ⟨rfl, fun _ => rfl⟩
    · have hloop := drain_of_tooLong (decodeAs_feed_error hd b)
      rw [drain_of_tooLong hd, hloop]
      exact ⟨rfl, fun _ => rfl⟩

/-! ## Chunk by chunk -/

/-- Feeds chunks one after the other, with a loop of calls after each: what is reported in all, and
what is left. -/
def readChunks (read : Bytes → Except Json.Fault α) (longest : Nat) (d : Decoder) :
    List Bytes → List (Except IoError α) × Decoder
  | [] => ([], d)
  | b :: bs =>
    let loop := (d.feed b).drain read longest
    let rest := readChunks read longest loop.2 bs
    (loop.1 ++ rest.1, rest.2)

/-- Chunks behind a loop of calls are read as one loop over all bytes reads them. -/
theorem readChunks_drain (bs : List Bytes) (d : Decoder) :
    (readChunks read longest (d.drain read longest).2 bs).2 =
      ((d.feed bs.flatten).drain read longest).2 ∧
    upToRefusal ((d.drain read longest).1 ++
        (readChunks read longest (d.drain read longest).2 bs).1) =
      ((d.feed bs.flatten).drain read longest).1 := by
  induction bs generalizing d with
  | nil =>
    rw [List.flatten_nil, feed_nil, readChunks, List.append_nil]
    exact ⟨rfl, upToRefusal_drain d⟩
  | cons b bs ih =>
    obtain ⟨hleft, hfound⟩ := @drain_feed _ read longest d b
    obtain ⟨ihleft, ihfound⟩ := ih (d.feed b)
    rw [List.flatten_cons, ← feed_feed, readChunks]
    dsimp only
    rw [hleft, hfound]
    exact ⟨ihleft, ihfound⟩

/-- A stream that is read chunk by chunk is read as if it had arrived at once. -/
theorem readChunks_eq (read : Bytes → Except Json.Fault α) (longest : Nat) (bs : List Bytes) :
    (readChunks read longest {} bs).2 = ((ofBytes bs.flatten).drain read longest).2 ∧
    upToRefusal (readChunks read longest {} bs).1 =
      ((ofBytes bs.flatten).drain read longest).1 := by
  have fresh : ({} : Decoder).drain read longest = ([], {}) := drain_of_none rfl
  have hall := @readChunks_drain _ read longest bs {}
  rw [fresh] at hall
  exact hall

/-- Two ways of cutting a stream into chunks give the same items and errors up to the first head
that is refused, leave the same decoder, and come to the same end. Every loop of calls ends, and a
call that is not its last has taken one whole frame and leaves the bytes behind it as if nothing had
stood before them, whether the text could be read or not. -/
theorem readChunks_of_flatten_eq {α : Type} (read : Bytes → Except Json.Fault α) (limit : Nat)
    {xs ys : List Bytes} (h : xs.flatten = ys.flatten) :
    let longest := Codec.longest { limit }
    let first := readChunks read longest {} xs
    let second := readChunks read longest {} ys
    (upToRefusal first.1 = upToRefusal second.1 ∧ first.2 = second.2 ∧
      first.2.decodeEndAs read longest = second.2.decodeEndAs read longest) ∧
    (∀ d : Decoder, ∃ n ≤ d.undecoded.length / 4,
      isLast ((d.afterCalls read longest n).decodeAs read longest).1 = true ∧
      ∀ k < n, isLast ((d.afterCalls read longest k).decodeAs read longest).1 = false) ∧
    ∀ d : Decoder, isLast (d.decodeAs read longest).1 = false →
      ∃ t rest, d.undecoded = Codec.frame t ++ rest ∧
        d.decodeAs read longest = (readAs read t, ofBytes rest) := by
  intro longest first second
  obtain ⟨hleft₁, hfound₁⟩ := readChunks_eq read longest xs
  obtain ⟨hleft₂, hfound₂⟩ := readChunks_eq read longest ys
  rw [← h] at hleft₂ hfound₂
  have hleft : first.2 = second.2 := hleft₁.trans hleft₂.symm
  refine ⟨⟨hfound₁.trans hfound₂.symm, hleft, by rw [hleft]⟩, ?_, ?_⟩
  · exact exists_isLast read longest
  · intro d hl
    exact decodeAs_of_not_isLast hl

/-- A stream of numbers cut inside two heads and at once: the frame of `7`, one that holds no
number, the frame of `8`, and a head that announces too long a text. -/
theorem readChunks_of_cutHeads :
    let stream : Bytes := [0, 0, 0, 1, 0x37, 0, 0, 0, 1, 0x78, 0, 0, 0, 1, 0x38, 0, 0, 0, 9, 0x31]
    let chunks := [stream.take 2, (stream.drop 2).take 5, [], stream.drop 7]
    let read := Json.Shape.word.read
    let longest := Codec.longest { limit := 8 }
    chunks.flatten = [stream].flatten ∧
      upToRefusal (readChunks read longest {} chunks).1 =
        upToRefusal (readChunks read longest {} [stream]).1 ∧
      (readChunks read longest {} chunks).2 = (readChunks read longest {} [stream]).2 := by
  intro stream chunks read longest
  have hflat : chunks.flatten = [stream].flatten := rfl
  obtain ⟨⟨hfound, hleft, -⟩, -⟩ := readChunks_of_flatten_eq read 8 hflat
  exact ⟨hflat, hfound, hleft⟩

end WorkerLink.Decoder
