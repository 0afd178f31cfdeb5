import WorkerLink.Proofs.Channel.Facts
import WorkerLink.Proofs.Channel.Teardown

/-!
# No permit is lost and none is dropped twice

The count of relays is that of the permits which somebody holds, and the reservation. Every step
changes it by just the permits that it acquires and drops (`step_pending`), so the count is never
taken below zero, and it is zero only when nobody is left to relay anything
(`pendingRelays_accounts`). A channel that has failed keeps the reservation for as long as its gate
is shut (`pendingRelays_of_failed`).
-/

namespace WorkerLink

/-- Whether a call acquires a permit with its next step, the reservation being held or not. -/
def Call.acquires (held : Bool) : Call → Bool
  | .reserve _ => !held
  | .relayOutput => true
  | _ => false

/-- Whether a step of binding the streams gives the reservation back. -/
def Wiring.isGivingBack : Wiring → Bool
  | .giveBack => true
  | _ => false

/-- Whether a call gives the reservation back with its next step. -/
def Call.isGivingBack : Call → Bool
  | .wire w => w.isGivingBack
  | .close _ (.giveBack _) => true
  | _ => false

namespace Channel

variable {ch ch' : Channel} {a : Action} {w w' : Wiring}

/-- The permits that somebody holds: the one on its way to the event consumer, the one that the
consumer has, and the one of the console relay. -/
def livePermits (ch : Channel) : Nat :=
  ch.wirings.countP Wiring.isHanding + ch.consumerPermit.toNat + ch.relay.isRunning.toNat

/-- Whether an action acquires a permit, or reserves one. -/
def acquires (ch : Channel) : Action → Bool
  | .call i => ch.calls[i]?.any (Call.acquires ch.countdown.held)
  | _ => false

/-- Whether an action gives the reservation back. -/
def givesBack (ch : Channel) : Action → Bool
  | .task .verifier => ch.verifier.wiring?.any Wiring.isGivingBack
  | .call i => ch.calls[i]?.any Call.isGivingBack
  | _ => false

/-- Whether an action drops a permit: that of a relay which ends with it, or the reserved one. -/
def drops (ch : Channel) (a : Action) : Bool :=
  match a with
  | .task .consumer => ch.consumerPermit && !(ch.step a).consumer.isRunning
  | .task .relay => ch.relay.isRunning && !(ch.step a).relay.isRunning
  | _ => ch.givesBack a && ch.countdown.take.1

/-! ## One step -/

theorem Permits.pendingRelays_eq (h : ch.Permits) :
    ch.pendingRelays = ch.livePermits + ch.countdown.held.toNat := by
  have hp := h.pending
  unfold pendingRelays livePermits
  omega

theorem Permits.consumer_isRunning (h : ch.Permits) (hp : ch.consumerPermit = true) :
    ch.consumer.isRunning = true := by
  simp [Task.isRunning, h.consumer hp]

theorem livePermits_pos_of_consumer (h : ch.consumerPermit = true) : 0 < ch.livePermits := by
  simp only [livePermits, h, Bool.toNat_true]
  omega

theorem livePermits_pos_of_relay (h : ch.relay.isRunning = true) : 0 < ch.livePermits := by
  simp only [livePermits, h, Bool.toNat_true]
  omega

/-- An action that is not possible acquires nothing and drops nothing. -/
theorem step_counted (h : ch.Permits) (a : Action) : Move ch a (ch.step a) ∨
    ch.step a = ch ∧ ch.acquires a = false ∧ ch.drops a = false := by
  cases a with
  | call i =>
    cases hi : ch.calls[i]? with
    | none => exact .inr ⟨by simp [step, stepCall, hi], by simp [acquires, hi],
        by simp [drops, givesBack, hi]⟩
    | some c =>
      left
      simp only [step, stepCall, hi]
      exact .call hi (ch.callStep_move c)
  | task x =>
    rcases ch.step_cases (.task x) with hs | m
    case inr => exact .inl m
    refine .inr ⟨hs, rfl, ?_⟩
    cases x with
    | consumer =>
      cases hp : ch.consumerPermit with
      | false => simp [drops, hp]
      | true => simp [drops, hs, h.consumer_isRunning hp]
    | relay => cases hr : ch.relay.isRunning <;> simp [drops, hs, hr]
    | verifier =>
      -- a step that gives the reservation back is always possible
      have hv : ch.verifier ≠ .wiring .giveBack := by
        intro hv
        have hf : (ch.step (.task .verifier)).verifier = .finished := by
          simp [step, taskStep, verifierStep, hv, wire]
        rw [hs, hv] at hf
        cases hf
      have hg : ch.givesBack (.task .verifier) = false := by
        cases hx : ch.verifier with
        | wiring w => cases w <;> simp_all [givesBack, Verifier.wiring?, Wiring.isGivingBack]
        | _ => simp [givesBack, hx, Verifier.wiring?]
      simp [drops, hg]
    | _ => rfl
  | _ =>
    rcases ch.step_cases _ with hs | m
    · exact .inr ⟨hs, rfl, rfl⟩
    · exact .inl m

/-- Only the step that gives the reservation back drops a permit while the streams are bound. -/
theorem WiringMove.pending_eq (m : WiringMove ch w ch' w')
    (hle : ch.countdown.held.toNat ≤ ch.countdown.pending) :
    ch'.countdown.pending + (w.isGivingBack && ch.countdown.take.1).toNat =
      ch.countdown.pending := by
  cases m with
  | giveBack =>
    simp only [Countdown.pending_discard, Countdown.take_fst, Wiring.isGivingBack, Bool.true_and]
    omega
  | takePermit => exact Countdown.pending_take _
  | _ => rfl

/-- What a call acquires and drops with a step. -/
theorem CallMove.pending_eq {c c' : Call} (m : CallMove ch c ch' c')
    (hle : ch.countdown.held.toNat ≤ ch.countdown.pending) :
    ch'.countdown.pending + (c.isGivingBack && ch.countdown.take.1).toNat =
      ch.countdown.pending + (c.acquires ch.countdown.held).toNat := by
  cases m with
  | reserve | reserveRelay =>
    cases hh : ch.countdown.held with
    | true => simp [Countdown.reserve_of_held hh, Call.isGivingBack, Call.acquires]
    | false => simp [Countdown.reserve_of_not_held hh, Call.isGivingBack, Call.acquires]
  | relayOutput => rfl
  | giveBack =>
    simp only [Countdown.pending_discard, Countdown.take_fst, Call.isGivingBack, Bool.true_and,
      Call.acquires, Bool.toNat_false]
    omega
  | wire m | wired m => exact m.pending_eq hle
  | _ => rfl

theorem Permits.release_eq (h : ch.Permits) (hl : 0 < ch.livePermits) :
    ch.countdown.release.pending + 1 = ch.countdown.pending := by
  have hp := h.pendingRelays_eq
  unfold pendingRelays at hp
  simp only [Countdown.release]
  omega

theorem Permits.release_consumer (h : ch.Permits) :
    (if ch.consumerPermit then ch.countdown.release else ch.countdown).pending +
      ch.consumerPermit.toNat = ch.countdown.pending := by
  cases hp : ch.consumerPermit with
  | false => rfl
  | true => exact h.release_eq (livePermits_pos_of_consumer hp)

theorem Move.pending_eq (m : Move ch a ch') (h : ch.Permits) (hs : ch.step a = ch') :
    ch'.countdown.pending + (ch.drops a).toNat =
      ch.countdown.pending + (ch.acquires a).toNat := by
  have hle : ch.countdown.held.toNat ≤ ch.countdown.pending := by
    have hp := h.pending
    omega
  cases m with
  | acceptor m => cases m <;> rfl
  | verifier m =>
    cases m with
    | wire hv m | wired hv m =>
      have hm := m.pending_eq hle
      simpa [drops, givesBack, acquires, hv, Verifier.wiring?] using hm
    | begin hv | blind hv | read hv | complete hv | ended hv | broke hv | judge hv | publish hv
    | record hv | opens hv | arrives hv | surplus hv =>
      have hd : ch.drops (.task .verifier) = false := by
        simp [drops, givesBack, hv, Verifier.wiring?]
      rw [hd]
      rfl
  | consumer m =>
    simp only [drops, acquires, hs]
    cases m with
    | halt | failed | ended =>
      simpa [Task.isRunning, Task.stop] using h.release_consumer
    | arrived hr | item hr => simp [Task.isRunning, hr]
  | producer m => cases m <;> rfl
  | relay m =>
    simp only [drops, acquires, hs]
    cases m with
    | read hr => simp [Task.isRunning, hr]
    | stop hr =>
      have hrun : ch.relay.isRunning = true := by simp [Task.isRunning, hr]
      have hm := h.release_eq (livePermits_pos_of_relay hrun)
      simpa [Task.isRunning, Task.stop, hr] using hm
  | call hi m => simpa [drops, givesBack, acquires, hi] using m.pending_eq hle
  | client ha => cases a <;> first | rfl | cases ha
  | _ => rfl

/-- Every step changes the count by just the permits that it acquires and drops. -/
theorem Permits.step_pending (h : ch.Permits) (a : Action) :
    (ch.step a).pendingRelays + (ch.drops a).toNat =
      ch.pendingRelays + (ch.acquires a).toNat := by
  rcases ch.step_counted h a with m | ⟨hs, ha, hd⟩
  · exact m.pending_eq h rfl
  · rw [hs, ha, hd]

/-- A permit that is dropped has been counted. -/
theorem Permits.pos_of_drops (h : ch.Permits) (hd : ch.drops a = true) : 0 < ch.pendingRelays := by
  rw [h.pendingRelays_eq]
  unfold drops at hd
  split at hd
  · have hl := livePermits_pos_of_consumer (Bool.and_eq_true_iff.1 hd).1
    omega
  · have hl := livePermits_pos_of_relay (Bool.and_eq_true_iff.1 hd).1
    omega
  · have hh := (Bool.and_eq_true_iff.1 hd).2
    rw [Countdown.take_fst] at hh
    rw [hh, Bool.toNat_true]
    omega

/-! ## Every run -/

/-- What is known of the count in a channel that may be closed. -/
structure Accounts (ch : Channel) : Prop where
  tracks : ch.Tracks
  reserves : ch.closed = false → ch.Reserves

theorem settled_step (h : ch.isSettled = true) (x : Actor) : ch.step (.task x) = ch := by
  simp [step, taskStep_of_isSettled h x]

theorem Tracks.unwired (h : ch.Tracks) (hr : ch.Rests) : ch.wirings = [] := by
  refine hr.wirings ?_
  rcases h.closes.inv.gathers.verifier_of_isSettled hr.settled with hv | ⟨got, hv⟩ | hv <;>
    rw [hv] <;> rfl

namespace Accounts

theorem keeps (h : ch.Accounts) (m : Move ch a ch') : ch'.Accounts where
  tracks := h.tracks.keeps m
  reserves hc := (h.reserves (m.open_of_open hc)).keeps h.tracks.closes.inv m hc

theorem run (h : ch.Accounts) (actions : List Action) : (ch.run actions).Accounts :=
  run_keeps keeps h actions

theorem of_create {m : Machine} {faults : Faults} {config : Config} {fresh : SessionId}
    {port : UInt16} {shape : Json.Shape}
    (h : create m faults config fresh port shape = .ok ch) : ch.Accounts := by
  have ht := Tracks.of_create h
  obtain ⟨descriptor, codec, rfl⟩ := create_eq h
  exact ⟨ht, fun _ => ⟨fun _ => rfl, nofun, nofun, nofun⟩⟩

theorem permits (h : ch.Accounts) : ch.Permits := h.tracks.closes.permits

/-- Whoever runs has been counted, unless the channel was closed. -/
theorem pos_of_running (h : ch.Accounts) (hc : ch.closed = false)
    (hr : ch.consumer.isRunning = true ∨ ch.relay.isRunning = true) : 0 < ch.pendingRelays := by
  have hl : 0 < ch.livePermits := by
    rcases hr with hr | hr
    · exact livePermits_pos_of_consumer
        ((h.reserves hc).consumer (by simpa [Task.isRunning] using hr))
    · exact livePermits_pos_of_relay hr
  rw [h.permits.pendingRelays_eq]
  omega

/-- Once all is settled in a closed channel, no task that moves traffic runs any more. -/
theorem stopped_of_rests (h : ch.Accounts) (hr : ch.Rests) (hc : ch.closed = true) :
    ch.consumer.isRunning = false ∧ ch.producer.isRunning = false ∧ ch.relay.isRunning = false := by
  have ends := h.tracks.closes.ends
  have hclosed := hr.hasClosed hc
  have aborted : ch.Aborted := by
    rcases ends.streams (hclosed.passed 4) with ⟨w, hw, -⟩ | ha
    · rw [h.tracks.unwired hr] at hw
      cases hw
    · exact ha
  have hcons := step_consumer_aborted aborted.1
  have hprod := step_producer_aborted aborted.2
  have hrelay := step_relay_aborted (ends.relay (hclosed.passed 5))
  rw [settled_step hr.settled] at hcons hprod hrelay
  exact ⟨hcons, hprod, hrelay⟩

/-- Once all is settled in a closed channel, nobody runs any more and nothing is reserved. -/
theorem pendingRelays_closed (h : ch.Accounts) (hr : ch.Rests) (hc : ch.closed = true) :
    ch.pendingRelays = 0 := by
  obtain ⟨hcons, -, hrelay⟩ := h.stopped_of_rests hr hc
  exact h.tracks.closes.pendingRelays_eq_zero (hr.hasClosed hc) (by simp [h.tracks.unwired hr])
    hcons hrelay

end Accounts

/-! ## Nobody is left to relay anything -/

/-- The event stream behind the first `n` bytes has come to its end, or a frame stands in it that
cannot be read. -/
def EndsOrFails (c : Codec) (n : Nat) (s : Stream) : Prop :=
  s.IsOver ∨ ((Decoder.ofBytes (s.written.drop n)).remainder c).1.isSome = true

/-- Both relays have stopped, and neither will be started. -/
structure Drained (ch : Channel) : Prop where
  inv : ch.Inv
  permits : ch.Permits
  opened : ch.gate.remaining = 0
  unwired : ch.wirings = []
  handler : ch.handler = true
  consumer : ch.consumer.isRunning = false
  relay : ch.relay.isRunning = false
  relaying : ch.calls.countP Call.isRelaying = 0

namespace Drained

/-- A call that does not bind the streams starts no relay. -/
theorem quiet_call {i : Nat} {c c' : Call} (h : ch.Drained) (hi : ch.calls[i]? = some c)
    (m : CallMove ch c ch' c') (hw : c.wiring? = none) : ch'.handler = true ∧
      ch'.consumer.isRunning = false ∧ ch'.relay.isRunning = false ∧ c'.isRelaying = false ∧
      ch'.handled = ch.handled ∧ ch'.lines = ch.lines := by
  have relaying (hc : c.isRelaying = true) : False := by
    have hpos := countP_pos Call.isRelaying hi hc
    rw [h.relaying] at hpos
    cases hpos
  cases m with
  | reserveRelay | relayOutput => exact (relaying rfl).elim
  | setEvents hn =>
    rw [h.handler] at hn
    cases hn
  | wire | wired => cases hw
  | _ => exact ⟨h.handler, h.consumer, h.relay, rfl, rfl, rfl⟩

/-- Nobody but the relays gives anything to the handler or to the console. -/
theorem quiet (h : ch.Drained) (m : Move ch a ch') (hb : ch.binds? a = none) :
    ch'.handler = true ∧ ch'.consumer.isRunning = false ∧ ch'.relay.isRunning = false ∧
      ch'.calls.countP Call.isRelaying = 0 ∧ ch'.handled = ch.handled ∧ ch'.lines = ch.lines := by
  have hcons := h.consumer
  have hrelay := h.relay
  cases m with
  | acceptor m => cases m <;> exact ⟨h.handler, hcons, hrelay, h.relaying, rfl, rfl⟩
  | verifier m =>
    cases m with
    | wire hv | wired hv => simp [binds?, hv, Verifier.wiring?] at hb
    | _ => exact ⟨h.handler, hcons, hrelay, h.relaying, rfl, rfl⟩
  | consumer m =>
    cases m with
    | halt hr | arrived hr | item hr | failed hr | ended hr => simp [Task.isRunning, hr] at hcons
  | producer m => cases m <;> exact ⟨h.handler, hcons, hrelay, h.relaying, rfl, rfl⟩
  | relay m =>
    cases m with
    | read hr | stop hr => simp [Task.isRunning, hr] at hrelay
  | @begin r =>
    refine ⟨h.handler, hcons, hrelay, ?_, rfl, rfl⟩
    rw [List.countP_append, h.relaying]
    cases r <;> rfl
  | @call i c c' ch' hi m =>
    simp only [binds?, hi, Option.bind_some] at hb
    obtain ⟨hh, hc, hr, hn, hhandled, hlines⟩ := h.quiet_call hi m hb
    have hset := countP_set_add Call.isRelaying hi c'
    refine ⟨hh, hc, hr, ?_, hhandled, hlines⟩
    rw [h.relaying, hn] at hset
    simp only [m.calls_eq]
    exact Nat.eq_zero_of_add_eq_zero_right (hset.trans rfl)
  | _ => exact ⟨h.handler, hcons, hrelay, h.relaying, rfl, rfl⟩

/-- Whatever happens, nothing is relayed any more. -/
theorem keeps (h : ch.Drained) (m : Move ch a ch') :
    ch'.Drained ∧ ch'.handled = ch.handled ∧ ch'.lines = ch.lines := by
  have hb := m.binds_eq_none h.inv.gathers h.unwired
  obtain ⟨hopened, hunwired, -⟩ := m.stays_unwired h.inv.gathers h.inv.accepts h.opened h.unwired
  obtain ⟨hh, hc, hr, hn, hhandled, hlines⟩ := h.quiet m hb
  exact ⟨⟨h.inv.keeps m, h.permits.keeps h.inv m, hopened, hunwired, hh, hc, hr, hn⟩, hhandled,
    hlines⟩

theorem run (h : ch.Drained) (as : List Action) :
    (ch.run as).handled = ch.handled ∧ (ch.run as).lines = ch.lines :=
  (run_keeps (P := fun x => x.Drained ∧ x.handled = ch.handled ∧ x.lines = ch.lines)
    (fun hx m => by
      obtain ⟨hd, hh, hl⟩ := hx.1.keeps m
      exact ⟨hd, hh.trans hx.2.1, hl.trans hx.2.2⟩) ⟨h, rfl, rfl⟩ as).2

end Drained

/-- Once all is settled and no relay is pending, the streams having been bound and neither disabled
nor closed, the event consumer has stopped by itself and the console relay, if there was one, has
too. -/
theorem Accounts.drained (h : ch.Accounts) (hr : ch.Rests) (hs : ch.streams = .both)
    (hc : ch.closed = false) (hd : ch.disabled = false) (hz : ch.pendingRelays = 0) :
    ch.Drained ∧ ∃ l, ch.slot = some l ∧
      FrameReader.Stopped ch.codec ch.session.length (ch.link l).inbound ch.handled := by
  have hi := h.tracks.closes.inv
  have hadm := hi.gathers.admitted (by rw [hs]; decide)
  have idle (hrun : ch.consumer.isRunning = true ∨ ch.relay.isRunning = true) : False := by
    have hpos := h.pos_of_running hc hrun
    omega
  have hcons : ch.consumer.isRunning = false := Bool.eq_false_iff.2 fun hx => idle (.inl hx)
  have hrelay : ch.relay.isRunning = false := Bool.eq_false_iff.2 fun hx => idle (.inr hx)
  have hunwired := h.tracks.unwired hr
  have hopen : ch.gate.remaining = 0 := by
    have hwired := hi.gathers.wired
    rw [hunwired] at hwired
    cases hwired with
    | waiting _ he => rw [he] at hs; cases hs
    | refused hg | bound hg => exact hg
  refine ⟨⟨hi, h.permits, hopen, hunwired, hadm.handler, hcons, hrelay, hr.countP fun _ => rfl⟩, ?_⟩
  obtain ⟨l, hl⟩ := Option.isSome_iff_exists.1 hadm.slot
  refine ⟨l, hl, ?_⟩
  have events := (hi.listens.hears l hl).events
  have started : ch.consumer.isStarted = true := congrArg StreamsBound.consumerStarted hs
  unfold Events at events
  cases hp : ch.consumer.phase with
  | absent => simp [Task.isStarted, hp] at started
  | running => simp [Task.isRunning, hp] at hcons
  | stopped =>
    rw [hp] at events
    refine events.resolve_right fun hcut => ?_
    have hcd := hcut.1
    rw [hc, hd] at hcd
    simp at hcd

/-- In every run, at any time, the relays that are pending are the permits that somebody holds, and
the reservation. Whatever happens next changes their number by just what is acquired and dropped, so
no permit is dropped that was not counted. None of them is missed: as long as the channel is not
closed, relays are pending while the event consumer or the console relay runs; and none is left once
all is settled in a closed channel. If the streams were bound, and neither disabled nor closed, and
no relay is pending once all is settled, then the event stream has come to its end or to a frame
that cannot be read, the handler has been given all that the bytes before hold, and neither it nor
the console is ever given more. -/
theorem pendingRelays_accounts {m : Machine} {faults : Faults} {config : Config}
    {fresh : SessionId} {port : UInt16} {shape : Json.Shape} {start : Channel}
    (hstart : create m faults config fresh port shape = .ok start) (actions : List Action) :
    let ch := start.run actions
    ch.pendingRelays = ch.livePermits + ch.countdown.held.toNat ∧
    (∀ a, (ch.step a).pendingRelays + (ch.drops a).toNat =
        ch.pendingRelays + (ch.acquires a).toNat ∧
      (ch.drops a = true → 0 < ch.pendingRelays)) ∧
    (ch.closed = false → ch.consumer.isRunning = true ∨ ch.relay.isRunning = true →
      0 < ch.pendingRelays) ∧
    (ch.Rests → ch.closed = true → ch.pendingRelays = 0) ∧
    (ch.Rests → ch.streams = .both → ch.closed = false → ch.disabled = false →
      ch.pendingRelays = 0 →
      (∃ l, ch.slot = some l ∧
        EndsOrFails start.codec start.session.length (ch.link l).inbound ∧
        start.codec.Holds ((ch.link l).inbound.written.drop start.session.length) ch.handled) ∧
      ∀ more, (ch.run more).handled = ch.handled ∧ (ch.run more).lines = ch.lines) := by
  intro ch
  have h : ch.Accounts := (Accounts.of_create hstart).run actions
  refine ⟨h.permits.pendingRelays_eq,
    fun a => ⟨h.permits.step_pending a, h.permits.pos_of_drops⟩, h.pos_of_running,
    h.pendingRelays_closed, fun hr hs hc hd hz => ?_⟩
  obtain ⟨hdrained, l, hl, hstopped⟩ := h.drained hr hs hc hd hz
  obtain ⟨hcodec, hdescriptor⟩ := start.run_fixed actions
  have hsession : ch.session = start.session := congrArg Descriptor.session hdescriptor
  rw [hcodec, hsession] at hstopped
  refine ⟨⟨l, hl, hstopped.cause.symm, ?_⟩, hdrained.run⟩
  have hholds := Decoder.holds_items start.codec
    ((ch.link l).inbound.written.drop start.session.length)
  rwa [hstopped.items_eq] at hholds

/-- The worker ends its stream behind one event. -/
def exampleEnding : List Action := exampleRun ++ .finish 0 :: List.replicate 4 (.task .consumer)

theorem pendingRelays_accounts_of_exampleEnding :
    0 < (exampleStart.run exampleRun).pendingRelays ∧
      (exampleStart.run exampleEnding).pendingRelays = 0 ∧
      (exampleStart.run exampleEnding).handled.length = 1 ∧
      ∀ more, ((exampleStart.run exampleEnding).run more).handled =
        (exampleStart.run exampleEnding).handled := by
  obtain ⟨-, -, hpos, -⟩ := pendingRelays_accounts create_exampleStart exampleRun
  obtain ⟨-, -, -, -, hdrained⟩ := pendingRelays_accounts create_exampleStart exampleEnding
  have hr : (exampleStart.run exampleEnding).Rests := by decide +kernel
  have hz : (exampleStart.run exampleEnding).pendingRelays = 0 := by decide +kernel
  have hb : (exampleStart.run exampleEnding).streams = .both := by decide +kernel
  exact ⟨hpos (by decide +kernel) (.inl (by decide +kernel)), hz, by decide +kernel, fun more =>
    ((hdrained hr hb (by decide +kernel) (by decide +kernel) hz).2 more).1⟩

/-! ## A channel that has failed -/

/-- Once all is settled in a channel that has failed, no permit is left but that of a console relay
which still runs, and the reservation, if its gate was never opened. -/
theorem Accounts.pendingRelays_failed (h : ch.Accounts) (hr : ch.Rests) (hf : ch.state = .failed) :
    ch.pendingRelays =
      (ch.handler && decide (ch.gate.remaining ≠ 0)).toNat + ch.relay.isRunning.toNat := by
  have hc : ch.closed = false := by
    cases hc : ch.closed with
    | false => rfl
    | true =>
      rw [h.tracks.closed hr hc] at hf
      cases hf
  have hw := h.tracks.unwired hr
  have hres := h.reserves hc
  have hheld : ch.countdown.held = (ch.handler && decide (ch.gate.remaining ≠ 0)) := by
    by_cases hg : ch.gate.remaining = 0
    · rw [hres.opened hg, hw, decide_eq_false (not_not.2 hg), Bool.and_false]
      rfl
    · have hwait := hres.waiting (Nat.pos_of_ne_zero hg)
      rw [hr.countP fun _ => rfl, Nat.add_zero] at hwait
      rw [decide_eq_true hg, Bool.and_true]
      cases hx : ch.countdown.held <;> cases hy : ch.handler <;> simp_all
  have hp : ch.consumerPermit = false := by
    cases hp : ch.consumerPermit with
    | false => rfl
    | true =>
      -- a consumer that runs is bound, and then the channel is ready
      have hrun := h.permits.consumer hp
      have hwired := h.tracks.closes.inv.gathers.wired
      have hstarted : ch.streams ≠ {} := fun he => by
        have hst := congrArg StreamsBound.consumerStarted he
        simp [streams, Task.isStarted, hrun] at hst
      rw [hw] at hwired
      cases hwired with
      | waiting _ hs | refused _ hs => exact (hstarted hs).elim
      | bound _ hs =>
        have hready := (h.tracks.isReady_iff hr).2 ⟨hs, hc⟩
        rw [isReady, hf] at hready
        cases hready
  rw [h.permits.pendingRelays_eq, livePermits, hheld, hw, hp]
  simp [Nat.add_comm]

/-- In every run, once all is settled and the calls of the owner have returned, a channel that has
failed waits for a console relay that still runs, and for the event consumer, which will never run,
just if an event handler is registered and the gate was never opened. -/
theorem pendingRelays_of_failed {m : Machine} {faults : Faults} {config : Config}
    {fresh : SessionId} {port : UInt16} {shape : Json.Shape} {start : Channel}
    (hstart : create m faults config fresh port shape = .ok start) (actions : List Action) :
    let ch := start.run actions
    ch.Rests → ch.state = .failed →
      ch.pendingRelays =
          (ch.handler && decide (ch.gate.remaining ≠ 0)).toNat + ch.relay.isRunning.toNat ∧
        (ch.relaysFinished = true ↔
          ch.relay.isRunning = false ∧ (ch.handler = true → ch.gate.remaining = 0)) := by
  intro ch hr hf
  have h : ch.Accounts := (Accounts.of_create hstart).run actions
  have hp := h.pendingRelays_failed hr hf
  refine ⟨hp, ?_⟩
  rw [relaysFinished, decide_eq_true_iff, hp]
  cases ch.handler <;> cases ch.relay.isRunning <;> simp

/-- A client is refused for want of a descriptor after both registrations. -/
def exampleRefusal : List Action :=
  [.begin .connect, .call 0, .call 0, .call 0, .call 0, .makeQueue, .begin (.bindCommands 0),
    .call 1, .call 1, .call 1, .begin (.bindEvents false), .call 2, .call 2, .call 2, .call 2,
    .setFaults { freeDescriptors := some 0 }, .join] ++ List.replicate 4 (.task .acceptor)

theorem pendingRelays_of_exampleRefusal :
    (exampleStart.run exampleRefusal).state = .failed ∧
      (exampleStart.run exampleRefusal).gate.remaining = 1 ∧
      (exampleStart.run exampleRefusal).pendingRelays = 1 ∧
      (exampleStart.run exampleRefusal).relaysFinished = false := by
  have hr : (exampleStart.run exampleRefusal).Rests := by decide +kernel
  have hf : (exampleStart.run exampleRefusal).state = .failed := by decide +kernel
  have hg : (exampleStart.run exampleRefusal).gate.remaining = 1 := by decide +kernel
  obtain ⟨hp, hw⟩ := pendingRelays_of_failed create_exampleStart exampleRefusal hr hf
  have hh : (exampleStart.run exampleRefusal).handler = true := by decide +kernel
  have hi : (exampleStart.run exampleRefusal).relay.isRunning = false := by decide +kernel
  refine ⟨hf, hg, ?_, Bool.eq_false_iff.2 fun hx => ?_⟩
  · rw [hp, hh, hi, hg]
    rfl
  · have hz := (hw.1 hx).2 hh
    rw [hg] at hz
    cases hz

/-- A channel that has failed, settled and has no relay running can wait for one all the same. -/
theorem failed_with_pending_reservation :
    ∃ actions, (exampleStart.run actions).Rests ∧ (exampleStart.run actions).state = .failed ∧
      (exampleStart.run actions).pendingRelays ≠
        (exampleStart.run actions).relay.isRunning.toNat :=
  ⟨exampleRefusal, by decide +kernel⟩

end Channel

end WorkerLink
