import WorkerLink.Proofs.Channel.Exclusion
import WorkerLink.Proofs.Channel.Permits

/-!
# How far closing has come

Each step of closing the channel brings something about that stays, whatever the tasks do before and
after it (`Ends`). The one thing that needs an argument are the streams: as long as somebody is
still binding them, the look at the end of it finds the channel closed (`Halts`).
-/

namespace WorkerLink

/-- The place of a point of closing in the order in which they are reached. -/
def Closing.number : Closing → Nat
  | .start => 0
  | .announce => 1
  | .shutWorker => 2
  | .releaseListener _ => 3
  | .abortStreams _ => 4
  | .abortConsole _ => 5
  | .giveBack _ => 6

/-- The point that a call to close the channel has reached, once it has begun to. -/
def Call.closing? : Call → Option Closing
  | .close _ .start => none
  | .close _ point => some point
  | _ => none

theorem Request.closing?_eq (r : Request) : r.call.closing? = none := by
  cases r <;> rfl

namespace Countdown

variable (c : Countdown)

theorem handouts_take : c.take.2.handouts + c.take.2.held.toNat = c.handouts + c.held.toNat := by
  cases h : c.held <;> simp [take, h]

theorem handouts_discard :
    c.discard.handouts + c.discard.held.toNat = c.handouts + c.held.toNat := by
  cases h : c.held <;> simp [discard, take, release, h]

end Countdown

namespace Channel

variable {ch ch' : Channel} {a : Action} {c c' : Call} {w w' : Wiring} {n : Nat}

/-- The channel was closed, and closing it has gone past a point. -/
def HasPassed (ch : Channel) (n : Nat) : Prop :=
  ch.closed = true ∧ ∀ c ∈ ch.calls, ∀ point, c.closing? = some point → n < point.number

/-- The channel was closed, and closing it has come to its end. -/
def HasClosed (ch : Channel) : Prop := ch.closed = true ∧ ∀ c ∈ ch.calls, c.closing? = none

instance (ch : Channel) : Decidable ch.HasClosed :=
  decidable_of_iff (ch.closed = true ∧ ∀ c ∈ ch.calls, c.closing?.isNone = true)
    (by simp [HasClosed])

theorem HasClosed.passed (h : ch.HasClosed) (n : Nat) : ch.HasPassed n := by
  refine ⟨h.1, ?_⟩
  intro c hc point hp
  rw [h.2 c hc] at hp
  cases hp

/-- The step with which closing goes past a point. -/
inductive Passes (ch : Channel) (n : Nat) : Action → Channel → Prop where
  | step {i : Nat} {dropping : Bool} {point : Closing} {c' : Call} {ch' : Channel}
    (hi : ch.calls[i]? = some (.close dropping point)) (hn : point.number = n)
    (m : CallMove ch (.close dropping point) ch' c') :
    Passes ch n (.call i) { ch' with calls := ch.calls.set i c' }

/-! ## The order of the steps -/

/-- Closing goes from one point to the next. -/
theorem CallMove.closing (m : CallMove ch c ch' c') {point : Closing}
    (h : c'.closing? = some point) :
    ∃ dropping before, c = .close dropping before ∧ point.number = before.number + 1 := by
  cases m with
  | close | announceClosed | shutNobody | shutWorker | shutFailed | releaseListener
  | abortAcceptor | abortStreams | abortConsole =>
    cases h
    exact ⟨_, _, rfl, rfl⟩
  | _ => cases h

/-- A call that goes on with closing has begun to before. -/
theorem CallMove.closing_before (m : CallMove ch c ch' c') (ho : ch.closed = true)
    {point : Closing} (h : c'.closing? = some point) :
    ∃ before, c.closing? = some before ∧ point.number = before.number + 1 := by
  obtain ⟨dropping, before, rfl, hn⟩ := m.closing h
  cases before with
  | start =>
    cases m with
    | close hx =>
      rw [ho] at hx
      cases hx
    | alreadyClosed => cases h
  | _ => exact ⟨_, rfl, hn⟩

/-- A call that is at a point of closing, and goes past it, takes the step there. -/
theorem CallMove.passes {i : Nat} (m : CallMove ch c ch' c') (hi : ch.calls[i]? = some c)
    (hn : n ≤ 6) {point : Closing} (hc : c.closing? = some point) (hle : point.number ≤ n)
    (hpast : ∀ point, c'.closing? = some point → n < point.number) :
    ch.Passes n (.call i) { ch' with calls := ch.calls.set i c' } := by
  have hm := m
  cases m with
  | announceClosed | shutNobody | shutWorker | shutFailed | releaseListener | abortAcceptor
  | abortStreams | abortConsole =>
    cases hc
    exact .step hi (Nat.le_antisymm hle (Nat.lt_succ_iff.1 (hpast _ rfl))) hm
  | giveBack =>
    cases hc
    exact .step hi (Nat.le_antisymm hle hn) hm
  | _ => cases hc

/-- Closing goes past a point with the step that is taken there. -/
theorem Move.passed_cases (m : Move ch a ch') (hn : n ≤ 6) (h : ch'.HasPassed n) :
    ch.HasPassed n ∨ ch.Passes n a ch' := by
  obtain ⟨hc, hpast⟩ := h
  cases ho : ch.closed with
  | false =>
    obtain ⟨i, dropping, rfl, hi, rfl⟩ := m.closes ho hc
    have hlt : i < ch.calls.length := (List.getElem?_eq_some_iff.1 hi).1
    have hn := hpast _ (List.mem_set hlt _) .announce rfl
    exact .inr (.step hi (Nat.lt_one_iff.1 hn).symm (.close ho))
  | true =>
    by_cases hp : ∀ c ∈ ch.calls, ∀ point, c.closing? = some point → n < point.number
    · exact .inl ⟨ho, hp⟩
    right
    -- some call has not gone past the point before, so it is the one that takes the step
    obtain ⟨c, hm, point, hpoint, hle⟩ :
        ∃ c ∈ ch.calls, ∃ point, c.closing? = some point ∧ point.number ≤ n := by
      by_contra hno
      exact hp fun c hm point hpoint =>
        Nat.lt_of_not_le fun hle => hno ⟨c, hm, point, hpoint, hle⟩
    have gone : c ∉ ch'.calls := fun hm' => Nat.not_lt.2 hle (hpast c hm' point hpoint)
    have hcalls := m.callsMove
    cases hcalls with
    | same he => exact (gone (he ▸ hm)).elim
    | begin => exact (gone (List.mem_append_left _ hm)).elim
    | @call i c₀ c' ch' hi mc =>
      obtain ⟨j, hj⟩ := List.mem_iff_getElem?.1 hm
      obtain rfl : i = j := by
        by_contra hne
        refine gone (List.mem_iff_getElem?.2 ⟨j, ?_⟩)
        rw [List.getElem?_set_ne hne]
        exact hj
      obtain rfl : c = c₀ := Option.some.inj (hj.symm.trans hi)
      have hlt : i < ch.calls.length := (List.getElem?_eq_some_iff.1 hi).1
      exact mc.passes hi hn hpoint hle (hpast c' (List.mem_set hlt _))

/-! ## The state -/

theorem advance_closed (next : Lifecycle) : Lifecycle.closed.advance next = .closed := by
  cases next <;> rfl

theorem WiringMove.state_closed (m : WiringMove ch w ch' w') (h : ch.state = .closed) :
    ch'.state = .closed := by
  cases m with
  | fail | announce => simp only [advance, h, advance_closed]
  | _ => exact h

theorem Move.state_closed (m : Move ch a ch') (h : ch.state = .closed) : ch'.state = .closed := by
  cases m with
  | acceptor m =>
    cases m with
    | accept | fail => simp only [advance, h, advance_closed]
    | _ => exact h
  | verifier m =>
    cases m with
    | begin | judge => simp only [advance, h, advance_closed]
    | wire _ m | wired _ m => exact m.state_closed h
    | _ => exact h
  | consumer m => cases m <;> exact h
  | producer m => cases m <;> exact h
  | relay m => cases m <;> exact h
  | call _ m =>
    cases m with
    | announceAccepting | announceClosed => simp only [advance, h, advance_closed]
    | wire m | wired m => exact m.state_closed h
    | _ => exact h
  | _ => exact h

/-! ## Accepting -/

/-- Nobody will start accepting, and who accepts is told to stop. -/
def StopsAccepting (ch : Channel) : Prop :=
  ch.listener ≠ .owner ∧ (ch.acceptor ≠ .absent → ch.acceptorAborted = true)

theorem WiringMove.aborted_eq (m : WiringMove ch w ch' w') :
    ch'.acceptorAborted = ch.acceptorAborted := by
  cases m <;> rfl

theorem StopsAccepting.call {i : Nat} (h : ch.StopsAccepting) (hr : ch.Refuses)
    (hc : ch.closed = true) (hi : ch.calls[i]? = some c) (m : CallMove ch c ch' c') :
    ch'.StopsAccepting := by
  have granted := hr hc c (List.mem_of_getElem? hi)
  cases m with
  | takeListener | spawnAcceptor => cases granted
  | releaseListener => exact ⟨nofun, fun ha => by simp [h.2 ha]⟩
  | abortAcceptor => exact ⟨h.1, fun ha => by simp [h.2 ha]⟩
  | wire m | wired m =>
    obtain ⟨ha, hl, -⟩ := m.accepting
    exact ⟨by rw [hl]; exact h.1, by rw [ha, m.aborted_eq]; exact h.2⟩
  | _ => exact h

theorem StopsAccepting.keeps (h : ch.StopsAccepting) (hr : ch.Refuses) (hc : ch.closed = true)
    (m : Move ch a ch') : ch'.StopsAccepting := by
  cases m with
  | acceptor m =>
    have aborted := h.2 m.ne_absent.1
    cases m with
    | abort | giveUp | report => exact ⟨nofun, fun _ => aborted⟩
    | _ => exact ⟨h.1, fun _ => aborted⟩
  | verifier m =>
    cases m with
    | wire _ m | wired _ m =>
      obtain ⟨ha, hl, -⟩ := m.accepting
      exact ⟨by rw [hl]; exact h.1, by rw [ha, m.aborted_eq]; exact h.2⟩
    | _ => exact h
  | consumer m => cases m <;> exact h
  | producer m => cases m <;> exact h
  | relay m => cases m <;> exact h
  | call hi m =>
    obtain ⟨hl, ha⟩ := h.call hr hc hi m
    exact ⟨hl, ha⟩
  | _ => exact h

/-! ## The streams -/

/-- Each stream that was started is told to stop. -/
def Aborted (ch : Channel) : Prop :=
  (ch.consumer.isStarted = true → ch.consumer.aborted = true) ∧
    (ch.producer.isStarted = true → ch.producer.aborted = true)

/-- Each stream that was started is told to stop, or somebody is still binding the streams and has
yet to look whether the channel was closed. -/
def Halts (ch : Channel) : Prop :=
  (∃ w, ch.wirings = [w] ∧ w ≠ .announce) ∨ ch.Aborted

theorem aborted_of_no_streams (h : ch.streams = {}) : ch.Aborted := by
  simp only [streams, StreamsBound.mk.injEq] at h
  exact ⟨fun hs => by simp [h.1] at hs, fun hs => by simp [h.2.2.1] at hs⟩

/-- Streams that are registered are told to stop. -/
theorem aborted_abortStreams (h : ch.streams = {} ∨ ch.streams = .both) :
    ch.abortStreams.Aborted := by
  rcases h with h | h
  · refine aborted_of_no_streams ?_
    rw [← h]
    rfl
  · simp only [streams, StreamsBound.both, StreamsBound.mk.injEq] at h
    exact ⟨fun _ => by simp [abortStreams, Task.abort, h.2.1],
      fun _ => by simp [abortStreams, Task.abort, h.2.2.2]⟩

/-- In a closed channel whoever binds the streams tells them to stop in the end. -/
theorem WiringMove.aborted (m : WiringMove ch w ch' w') (hc : ch.closed = true) (hat : ch.At w)
    (hw : w ≠ .finished) (h : w = .announce → ch.Aborted) :
    w' ≠ .announce ∧ (w' = .finished → ch'.Aborted) := by
  have st := hat.streams
  cases m with
  | start ho | recheck ho =>
    rw [hc] at ho
    cases ho
  | closed | giveBack => exact ⟨nofun, fun _ => aborted_of_no_streams st⟩
  | abort => exact ⟨nofun, fun _ => aborted_abortStreams (.inr st)⟩
  | announce => exact ⟨nofun, fun _ => h rfl⟩
  | finished => exact (hw rfl).elim
  | _ => exact ⟨nofun, nofun⟩

theorem Binds.halts (b : Binds ch w ch') (h : ch.Halts) (hc : ch.closed = true) : ch'.Halts := by
  cases b with
  | @step w' ch₁ v cs m hw hg hne hat hw' hv hcs =>
    have announced : w = .announce → ch.Aborted := by
      rintro rfl
      refine h.resolve_left ?_
      rintro ⟨w, hws, hn⟩
      rw [hw] at hws
      exact hn (List.singleton_inj.1 hws).symm
    obtain ⟨hn, hlast⟩ := m.aborted hc hat hne announced
    by_cases hf : w' = .finished
    · exact .inr (hlast hf)
    · rw [if_neg hf] at hw'
      exact .inl ⟨w', hw', hn⟩

theorem Task.aborted_abort {t : Task} (h : t.aborted = true) : t.abort.aborted = true := by
  simp [Task.abort, h]

theorem WiringMove.still_aborted (m : WiringMove ch w ch' w') :
    (ch.consumer.aborted = true → ch'.consumer.aborted = true) ∧
      (ch.producer.aborted = true → ch'.producer.aborted = true) := by
  cases m with
  | abort => exact ⟨Task.aborted_abort, Task.aborted_abort⟩
  | _ => exact ⟨id, id⟩

/-- Nobody takes it back that a stream was told to stop. -/
theorem Move.still_aborted (m : Move ch a ch') :
    (ch.consumer.aborted = true → ch'.consumer.aborted = true) ∧
      (ch.producer.aborted = true → ch'.producer.aborted = true) := by
  cases m with
  | acceptor m => cases m <;> exact ⟨id, id⟩
  | verifier m =>
    cases m with
    | wire _ m | wired _ m =>
      obtain ⟨hc, hp⟩ := m.still_aborted
      exact ⟨hc, hp⟩
    | _ => exact ⟨id, id⟩
  | consumer m => cases m <;> exact ⟨id, id⟩
  | producer m => cases m <;> exact ⟨id, id⟩
  | relay m => cases m <;> exact ⟨id, id⟩
  | call _ m =>
    cases m with
    | wire m | wired m =>
      obtain ⟨hc, hp⟩ := m.still_aborted
      exact ⟨hc, hp⟩
    | abortStreams => exact ⟨Task.aborted_abort, Task.aborted_abort⟩
    | _ => exact ⟨id, id⟩
  | _ => exact ⟨id, id⟩

theorem Halts.keeps (h : ch.Halts) (hi : ch.Inv) (hc : ch.closed = true) (m : Move ch a ch') :
    ch'.Halts := by
  cases hb : ch.binds? a with
  | some w => exact (m.binds hi.gathers hb).halts h hc
  | none =>
    obtain ⟨extends', leaves⟩ := m.bystander hi.gathers hi.accepts hb
    cases leaves with
    | opens _ _ _ hw' => exact .inl ⟨.start, hw', nofun⟩
    | same hw =>
      rcases h with ⟨w, hws, hn⟩ | ⟨hcons, hprod⟩
      · exact .inl ⟨w, hw.trans hws, hn⟩
      · obtain ⟨hac, hap⟩ := m.still_aborted
        have st := extends'.streams
        simp only [streams, StreamsBound.mk.injEq] at st
        exact .inr ⟨fun hs => hac (hcons (st.1 ▸ hs)), fun hs => hap (hprod (st.2.2.1 ▸ hs))⟩

/-- When streams are told to stop whom nobody is binding, both of them are registered. -/
theorem Gathers.halts_abortStreams (h : ch.Gathers) {cs : List Call}
    (hcs : cs.filterMap Call.wiring? = ch.calls.filterMap Call.wiring?) :
    Halts { ch.abortStreams with calls := cs } := by
  have hws : wirings { ch.abortStreams with calls := cs } = ch.wirings := by
    simp only [wirings, hcs]
    rfl
  have hwired := h.wired
  unfold Halts
  rw [hws]
  generalize ch.wirings = ws at hwired
  cases hwired with
  | waiting _ hs | refused _ hs => exact .inr (aborted_abortStreams (.inl hs))
  | bound _ hs => exact .inr (aborted_abortStreams (.inr hs))
  | @underWay w _ _ hat =>
    by_cases hw : w = .announce
    · subst hw
      exact .inr (aborted_abortStreams (.inr hat.streams))
    · exact .inl ⟨w, rfl, hw⟩

/-! ## The console relay -/

/-- The console relay is started by a call that the channel granted, which registers it too. -/
theorem Move.relay_cases (m : Move ch a ch') :
    ch'.relay = ch.relay ∨ (ch.relay.phase = .running ∧ ch'.relay = ch.relay.stop) ∨
      ch'.relay = ch.relay.abort ∨
      ((∃ c ∈ ch.calls, c.isGranted = true) ∧ ch'.relay = ch.relay.start.register) := by
  cases m with
  | acceptor m => cases m <;> exact .inl rfl
  | verifier m =>
    cases m with
    | wire _ m | wired _ m => exact .inl m.relay_eq
    | _ => exact .inl rfl
  | consumer m => cases m <;> exact .inl rfl
  | producer m => cases m <;> exact .inl rfl
  | relay m =>
    cases m with
    | read => exact .inl rfl
    | stop hr => exact .inr (.inl ⟨hr, rfl⟩)
  | call hi m =>
    cases m with
    | wire m | wired m => exact .inl m.relay_eq
    | relayOutput => exact .inr (.inr (.inr ⟨⟨_, List.mem_of_getElem? hi, rfl⟩, rfl⟩))
    | abortConsole => exact .inr (.inr (.inl rfl))
    | _ => exact .inl rfl
  | _ => exact .inl rfl

/-- A console relay that was started is known to the channel. -/
def KnowsRelay (ch : Channel) : Prop :=
  ch.relay.isStarted = true → ch.relay.registered = true

/-- A console relay that was started is told to stop. -/
def HaltsRelay (ch : Channel) : Prop :=
  ch.relay.isStarted = true → ch.relay.aborted = true

theorem KnowsRelay.keeps (h : ch.KnowsRelay) (m : Move ch a ch') : ch'.KnowsRelay := by
  unfold KnowsRelay
  rcases m.relay_cases with he | ⟨hr, he⟩ | he | ⟨-, he⟩ <;> rw [he]
  · exact h
  · rw [Task.isStarted_stop hr]
    exact h
  · exact h
  · exact fun _ => rfl

theorem HaltsRelay.keeps (h : ch.HaltsRelay) (hr : ch.Refuses) (hc : ch.closed = true)
    (m : Move ch a ch') : ch'.HaltsRelay := by
  unfold HaltsRelay
  rcases m.relay_cases with he | ⟨hp, he⟩ | he | ⟨⟨c, hm, hg⟩, -⟩
  · rw [he]
    exact h
  · rw [he, Task.isStarted_stop hp]
    exact h
  · rw [he]
    exact fun hs => Task.aborted_abort (h hs)
  · rw [hr hc c hm] at hg
    cases hg

/-! ## The reservation -/

/-- The reserved permit was handed out, is held or about to be reserved, and not more than one of
these, once an event handler is registered. -/
def HandsOut (ch : Channel) : Prop :=
  ch.countdown.handouts + ch.countdown.held.toNat + ch.calls.countP Call.isReserving =
    ch.handler.toNat

theorem WiringMove.countdown (m : WiringMove ch w ch' w') :
    ch'.countdown.handouts + ch'.countdown.held.toNat =
        ch.countdown.handouts + ch.countdown.held.toNat ∧
      (ch.countdown.held = false → ch'.countdown.held = false) := by
  cases m with
  | takePermit => exact ⟨Countdown.handouts_take _, fun _ => Countdown.held_take _⟩
  | giveBack => exact ⟨Countdown.handouts_discard _, fun _ => Countdown.held_discard _⟩
  | _ => exact ⟨rfl, id⟩

theorem CallMove.handsOut {i : Nat} (m : CallMove ch c ch' c') (hi : ch.calls[i]? = some c)
    (h : ch.HandsOut) :
    ch'.countdown.handouts + ch'.countdown.held.toNat + c'.isReserving.toNat + ch.handler.toNat =
      ch.countdown.handouts + ch.countdown.held.toNat + c.isReserving.toNat +
        ch'.handler.toNat := by
  cases m with
  | reserve | reserveRelay =>
    have hpos := countP_pos Call.isReserving hi rfl
    have hle := ch.handler.toNat_le
    have hh : ch.countdown.held = false := by
      rw [← Bool.toNat_eq_zero]
      unfold HandsOut at h
      omega
    simp [Countdown.reserve_of_not_held hh, hh, Call.isReserving]
  | setEvents hn => simp [hn, Call.isReserving]
  | giveBack =>
    have hd := ch.countdown.handouts_discard
    simp only [Call.isReserving, Bool.toNat_false]
    omega
  | wire m | wired m =>
    have hw := m.countdown.1
    simp only [Call.isReserving, Bool.toNat_false, m.outcome_eq.2.2.2]
    omega
  | _ => rfl

theorem HandsOut.of_eq (h : ch.HandsOut) (hd : ch'.countdown.handouts +
      ch'.countdown.held.toNat = ch.countdown.handouts + ch.countdown.held.toNat)
    (hh : ch'.handler = ch.handler)
    (hcs : ch'.calls.countP Call.isReserving = ch.calls.countP Call.isReserving) :
    ch'.HandsOut := by
  unfold HandsOut at h ⊢
  rw [hd, hh, hcs, h]

theorem handouts_ite_release (p : Bool) (c : Countdown) :
    (if p then c.release else c).handouts + (if p then c.release else c).held.toNat =
      c.handouts + c.held.toNat := by
  cases p <;> rfl

theorem HandsOut.keeps (h : ch.HandsOut) (m : Move ch a ch') : ch'.HandsOut := by
  cases m with
  | acceptor m => cases m <;> exact h
  | verifier m =>
    cases m with
    | wire _ m | wired _ m =>
      exact h.of_eq m.countdown.1 m.outcome_eq.2.2.2 (by rw [m.accepting.2.2.1])
    | _ => exact h
  | consumer m =>
    cases m with
    | halt | failed | ended => exact h.of_eq (handouts_ite_release ..) rfl rfl
    | _ => exact h
  | producer m => cases m <;> exact h
  | relay m => cases m <;> exact h
  | @begin r =>
    refine h.of_eq rfl rfl ?_
    cases r <;> simp [Request.call, Call.isReserving]
  | @call i c c' ch' hi m =>
    have hm := m.handsOut hi h
    have hn := countP_set_add Call.isReserving hi c'
    unfold HandsOut at h ⊢
    simp only [m.calls_eq]
    omega
  | _ => exact h

/-- In a closed channel nothing is reserved any more. -/
theorem Move.held_closed (m : Move ch a ch') (hr : ch.Refuses) (hc : ch.closed = true)
    (h : ch.countdown.held = false) : ch'.countdown.held = false := by
  cases m with
  | acceptor m => cases m <;> exact h
  | verifier m =>
    cases m with
    | wire _ m | wired _ m => exact m.countdown.2 h
    | _ => exact h
  | consumer m =>
    cases m with
    | halt | failed | ended =>
      cases ch.consumerPermit <;> exact h
    | _ => exact h
  | producer m => cases m <;> exact h
  | relay m => cases m <;> exact h
  | call hi m =>
    have granted := hr hc _ (List.mem_of_getElem? hi)
    cases m with
    | wire m | wired m => exact m.countdown.2 h
    | reserve | reserveRelay | relayOutput => cases granted
    | giveBack => exact Countdown.held_discard _
    | _ => exact h
  | _ => exact h

/-! ## All of it -/

/-- What closing has brought about, by how far it has come. -/
structure Ends (ch : Channel) : Prop where
  state : ch.HasPassed 1 → ch.state = .closed
  acceptor : ch.HasPassed 3 → ch.StopsAccepting
  streams : ch.HasPassed 4 → ch.Halts
  relay : ch.HasPassed 5 → ch.HaltsRelay
  reservation : ch.HasPassed 6 → ch.countdown.held = false

/-- What holds whenever a channel is looked at that may be closed. -/
structure Closes (ch : Channel) : Prop where
  inv : ch.Inv
  permits : ch.Permits
  excludes : ch.Excludes
  refuses : ch.Refuses
  knowsRelay : ch.KnowsRelay
  handsOut : ch.HandsOut
  ends : ch.Ends

theorem Passes.state (p : ch.Passes 1 a ch') : ch'.state = .closed := by
  cases p with
  | step hi hn m =>
    cases m with
    | announceClosed => cases hs : ch.state <;> simp [advance, hs, Lifecycle.advance]
    | _ => cases hn

theorem Passes.stopsAccepting (p : ch.Passes 3 a ch') : ch'.StopsAccepting := by
  cases p with
  | step hi hn m =>
    cases m with
    | releaseListener => exact ⟨by simp, fun ha => by simp [bne_iff_ne.2 ha]⟩
    | abortAcceptor hl => exact ⟨hl, fun ha => by simp [bne_iff_ne.2 ha]⟩
    | _ => cases hn

theorem Passes.halts (p : ch.Passes 4 a ch') (h : ch.Gathers) : ch'.Halts := by
  cases p with
  | step hi hn m =>
    cases m with
    | abortStreams =>
      obtain ⟨before, after, hold, hnew⟩ := filterMap_set_split Call.wiring? hi
      exact h.halts_abortStreams ((hnew _).trans hold.symm)
    | _ => cases hn

theorem Passes.haltsRelay (p : ch.Passes 5 a ch') (h : ch.KnowsRelay) : ch'.HaltsRelay := by
  cases p with
  | step hi hn m =>
    cases m with
    | abortConsole =>
      intro hs
      simp [Task.abort, h hs]
    | _ => cases hn

theorem Passes.held (p : ch.Passes 6 a ch') : ch'.countdown.held = false := by
  cases p with
  | step hi hn m =>
    cases m with
    | giveBack => exact Countdown.held_discard _
    | _ => cases hn

theorem Closes.ends_keeps (h : ch.Closes) (m : Move ch a ch') : ch'.Ends where
  state hp := by
    rcases m.passed_cases (by decide) hp with hp | p
    · exact m.state_closed (h.ends.state hp)
    · exact p.state
  acceptor hp := by
    rcases m.passed_cases (by decide) hp with hp | p
    · exact (h.ends.acceptor hp).keeps h.refuses hp.1 m
    · exact p.stopsAccepting
  streams hp := by
    rcases m.passed_cases (by decide) hp with hp | p
    · exact (h.ends.streams hp).keeps h.inv hp.1 m
    · exact p.halts h.inv.gathers
  relay hp := by
    rcases m.passed_cases (by decide) hp with hp | p
    · exact (h.ends.relay hp).keeps h.refuses hp.1 m
    · exact p.haltsRelay h.knowsRelay
  reservation hp := by
    rcases m.passed_cases (by decide) hp with hp | p
    · exact m.held_closed h.refuses hp.1 (h.ends.reservation hp)
    · exact p.held

theorem Closes.keeps (h : ch.Closes) (m : Move ch a ch') : ch'.Closes where
  inv := h.inv.keeps m
  permits := h.permits.keeps h.inv m
  excludes := h.excludes.keeps m
  refuses := h.refuses.keeps h.excludes m
  knowsRelay := h.knowsRelay.keeps m
  handsOut := h.handsOut.keeps m
  ends := h.ends_keeps m

theorem Closes.run (h : ch.Closes) (actions : List Action) : (ch.run actions).Closes :=
  run_keeps Closes.keeps h actions

theorem Closes.of_create {m : Machine} {faults : Faults} {config : Config} {fresh : SessionId}
    {port : UInt16} {shape : Json.Shape}
    (h : create m faults config fresh port shape = .ok ch) : ch.Closes := by
  have hi := Inv.of_create h
  obtain ⟨descriptor, codec, rfl⟩ := create_eq h
  have opened {P : Prop} {n : Nat}
      (hp : HasPassed { forkId := config.forkId, descriptor, codec } n) : P := nomatch hp.1
  exact
    { inv := hi
      permits := ⟨rfl, nofun, Nat.le_refl _⟩
      excludes := by
        intro i j c d hc
        cases hc
      refuses := nofun
      knowsRelay := nofun
      handsOut := rfl
      ends := ⟨opened, opened, opened, opened, opened⟩ }

end Channel

end WorkerLink
