import WorkerLink.Proofs.Channel.Binding

/-!
# Counting the relays that have not finished

The count is, at any time, the reservation if it is held, the permit that is on its way to the event
consumer, the one that the consumer holds and the one of the console relay (`Permits.pending`).
While the channel is not closed, the reservation is held from the registration of the event handler
until the streams are bound or cannot be bound (`Reserves`).
-/

namespace WorkerLink

namespace Countdown

variable (c : Countdown)

theorem reserve_of_held {c : Countdown} (h : c.held = true) : c.reserve = c := by
  simp [reserve, h]

theorem reserve_of_not_held {c : Countdown} (h : c.held = false) :
    c.reserve = { c with pending := c.pending + 1, held := true } := by
  simp [reserve, h]

@[simp] theorem take_fst : c.take.1 = c.held := by
  cases h : c.held <;> simp [take, h]

@[simp] theorem pending_take : c.take.2.pending = c.pending := by
  cases h : c.held <;> simp [take, h]

@[simp] theorem held_take : c.take.2.held = false := by
  cases h : c.held <;> simp [take, h]

@[simp] theorem pending_discard : c.discard.pending = c.pending - c.held.toNat := by
  cases h : c.held <;> simp [discard, take, release, h]

@[simp] theorem held_discard : c.discard.held = false := by
  cases h : c.held <;> simp [discard, take, release, h]

end Countdown

/-- Whether a permit is on its way to the event consumer. -/
def Wiring.isHanding : Wiring → Bool
  | .spawnConsumer permit => permit
  | _ => false

/-- Whether the reservation is still held at a point of binding the streams. -/
def Wiring.isReserved : Wiring → Bool
  | .start | .judge | .gather | .connect | .fail | .giveBack | .takePermit => true
  | _ => false

/-- Whether a call is about to reserve a permit. -/
def Call.isReserving : Call → Bool
  | .reserve _ => true
  | _ => false

/-- Whether a call has registered an event handler and is still to start the console relay. -/
def Call.isRelaying : Call → Bool
  | .reserve true | .relayOutput => true
  | _ => false

namespace Channel

variable {ch ch' : Channel} {a : Action} {w w' : Wiring}

/-- Who the relays are that have not finished. -/
structure Permits (ch : Channel) : Prop where
  pending : ch.countdown.pending = ch.countdown.held.toNat +
    ch.wirings.countP Wiring.isHanding + ch.consumerPermit.toNat + ch.relay.isRunning.toNat
  consumer : ch.consumerPermit = true → ch.consumer.phase = .running
  relay : ch.calls.countP Call.isRelaying + ch.relay.isStarted.toNat ≤ ch.handler.toNat

/-! ## Binding the streams -/

theorem WiringMove.relay_eq (m : WiringMove ch w ch' w') : ch'.relay = ch.relay := by
  cases m <;> rfl

/-- A permit is handed on from the reservation to the event consumer, or given back. -/
theorem WiringMove.pending (m : WiringMove ch w ch' w') (hat : ch.At w)
    (hc : ch.consumerPermit = true → ch.consumer.phase = .running) {relay : Nat}
    (h : ch.countdown.pending =
      ch.countdown.held.toNat + w.isHanding.toNat + ch.consumerPermit.toNat + relay) :
    ch'.countdown.pending =
      ch'.countdown.held.toNat + w'.isHanding.toNat + ch'.consumerPermit.toNat + relay := by
  cases m with
  | giveBack =>
    simp only [Countdown.pending_discard, Countdown.held_discard, Wiring.isHanding,
      Bool.toNat_false] at h ⊢
    omega
  | takePermit =>
    simp only [Countdown.pending_take, Countdown.held_take, Countdown.take_fst, Wiring.isHanding,
      Bool.toNat_false] at h ⊢
    omega
  | @spawnConsumer permit =>
    have hp : ch.consumerPermit = false := by
      have hst := congrArg (·.consumerStarted) hat.streams
      cases hcp : ch.consumerPermit with
      | false => rfl
      | true => simp [streams, Wiring.streams, Task.isStarted, hc hcp] at hst
    simp only [hp, Wiring.isHanding, Bool.toNat_false] at h ⊢
    omega
  | _ => exact h

theorem WiringMove.consumer_permit (m : WiringMove ch w ch' w')
    (hc : ch.consumerPermit = true → ch.consumer.phase = .running) :
    ch'.consumerPermit = true → ch'.consumer.phase = .running := by
  cases m with
  | spawnConsumer => exact fun _ => rfl
  | _ => exact hc

theorem Binds.permits (b : Binds ch w ch') (h : ch.Permits) : ch'.Permits := by
  cases b with
  | @step w' ch₁ v cs m hw hg hne hat hw' hv hcs =>
    have hpending := h.pending
    rw [hw, countP_singleton_toNat] at hpending
    have hm := m.pending hat h.consumer hpending
    refine ⟨?_, m.consumer_permit h.consumer, ?_⟩
    · rw [wirings, hw']
      split
      · rename_i hf
        rw [hf] at hm
        simpa [m.relay_eq, Wiring.isHanding] using hm
      · rw [countP_singleton_toNat, m.relay_eq]
        exact hm
    · rw [m.relay_eq, m.outcome_eq.2.2.2, hcs Call.isRelaying (fun _ => rfl) fun _ => rfl]
      exact h.relay

/-! ## Every other move -/

theorem Task.isRunning_le_isStarted (t : Task) : t.isRunning.toNat ≤ t.isStarted.toNat := by
  obtain ⟨phase, registered, aborted⟩ := t
  cases phase <;> simp [Task.isRunning, Task.isStarted]

/-- What a call that does not bind the streams does to the permits. -/
theorem CallMove.permits {i : Nat} {c c' : Call} (m : CallMove ch c ch' c')
    (hi : ch.calls[i]? = some c) (hw : c.wiring? = none) (h : ch.Permits) {n : Nat}
    (hp : ch.countdown.pending = ch.countdown.held.toNat + n + ch.consumerPermit.toNat +
      ch.relay.isRunning.toNat) :
    ch'.countdown.pending = ch'.countdown.held.toNat + n + ch'.consumerPermit.toNat +
        ch'.relay.isRunning.toNat ∧
      ch'.consumerPermit = ch.consumerPermit ∧ ch'.consumer.phase = ch.consumer.phase ∧
      c'.isRelaying.toNat + ch'.relay.isStarted.toNat + ch.handler.toNat ≤
        c.isRelaying.toNat + ch.relay.isStarted.toNat + ch'.handler.toNat := by
  cases m with
  | reserve | reserveRelay =>
    refine ⟨?_, rfl, rfl, Nat.le_refl _⟩
    cases hh : ch.countdown.held with
    | true => rw [Countdown.reserve_of_held hh, hp, hh]
    | false =>
      rw [Countdown.reserve_of_not_held hh]
      simp only [hp, hh, Bool.toNat_false, Bool.toNat_true]
      omega
  | relayOutput =>
    have hpos := countP_pos Call.isRelaying hi rfl
    have hle := h.relay
    have hh := ch.handler.toNat_le
    have hs : ch.relay.isStarted.toNat = 0 := by omega
    have hr : ch.relay.isRunning.toNat = 0 :=
      Nat.le_zero.1 (hs ▸ Task.isRunning_le_isStarted ch.relay)
    have hrun : ch.relay.start.register.isRunning = true := rfl
    refine ⟨?_, rfl, rfl, ?_⟩
    · rw [hr] at hp
      simp only [Countdown.acquire, hp, hrun, Bool.toNat_true]
    · simp [Call.isRelaying, Task.isStarted, Task.start, Task.register]
  | @setEvents output hn =>
    refine ⟨hp, rfl, rfl, ?_⟩
    cases output <;> simp [hn, Call.isRelaying]
    omega
  | giveBack =>
    refine ⟨?_, rfl, rfl, Nat.le_refl _⟩
    simp only [Countdown.pending_discard, Countdown.held_discard, Bool.toNat_false]
    omega
  | abortConsole => exact ⟨hp, rfl, rfl, Nat.le_refl _⟩
  | wire | wired => cases hw
  | _ => exact ⟨hp, rfl, rfl, Nat.le_refl _⟩

theorem Permits.of_eq (h : ch.Permits) (hw : ch'.wirings.countP Wiring.isHanding =
      ch.wirings.countP Wiring.isHanding)
    (hd : ch'.countdown = ch.countdown) (hp : ch'.consumerPermit = ch.consumerPermit)
    (hc : ch'.consumer = ch.consumer) (hr : ch'.relay = ch.relay) (hh : ch'.handler = ch.handler)
    (hcs : ch'.calls.countP Call.isRelaying = ch.calls.countP Call.isRelaying) : ch'.Permits := by
  refine ⟨?_, ?_, ?_⟩
  · rw [hw, hd, hp, hr, h.pending]
  · rw [hp, hc]
    exact h.consumer
  · rw [hcs, hr, hh]
    exact h.relay

theorem Leaves.handing (l : Leaves ch ch') :
    ch'.wirings.countP Wiring.isHanding = ch.wirings.countP Wiring.isHanding := by
  cases l with
  | same hw => rw [hw]
  | opens _ _ hw hw' => rw [hw, hw']; rfl

theorem Permits.stop_consumer (h : ch.Permits) (hw : ch'.wirings = ch.wirings)
    (hd : ch'.countdown =
      if ch.consumerPermit then ch.countdown.release else ch.countdown)
    (hp : ch'.consumerPermit = false) (hr : ch'.relay = ch.relay) (hh : ch'.handler = ch.handler)
    (hcs : ch'.calls = ch.calls) : ch'.Permits := by
  have hpending := h.pending
  refine ⟨?_, ?_, ?_⟩
  · rw [hw, hd, hp, hr]
    cases hcp : ch.consumerPermit with
    | false =>
      rw [hcp] at hpending
      exact hpending
    | true =>
      rw [hcp, Bool.toNat_true] at hpending
      simp only [if_true, Countdown.release, Bool.toNat_false]
      omega
  · rw [hp]
    nofun
  · rw [hcs, hr, hh]
    exact h.relay

theorem Permits.keeps (h : ch.Permits) (hi : ch.Inv) (m : Move ch a ch') : ch'.Permits := by
  cases hb : ch.binds? a with
  | some w => exact (m.binds hi.gathers hb).permits h
  | none =>
    have leaves := (m.bystander hi.gathers hi.accepts hb).2.handing
    cases m with
    | acceptor m => cases m <;> exact h.of_eq leaves rfl rfl rfl rfl rfl rfl
    | verifier m =>
      cases m with
      | wire hv | wired hv => simp [binds?, hv, Verifier.wiring?] at hb
      | _ => exact h.of_eq leaves rfl rfl rfl rfl rfl rfl
    | consumer m =>
      cases m with
      | halt | failed | ended => exact h.stop_consumer rfl rfl rfl rfl rfl rfl
      | arrived | item => exact h.of_eq leaves rfl rfl rfl rfl rfl rfl
    | producer m => cases m <;> exact h.of_eq leaves rfl rfl rfl rfl rfl rfl
    | relay m =>
      cases m with
      | read => exact h.of_eq leaves rfl rfl rfl rfl rfl rfl
      | stop hr =>
        have hrun : ch.relay.isRunning = true := by simp [Task.isRunning, hr]
        have hpending := h.pending
        refine ⟨?_, h.consumer, ?_⟩
        · rw [hrun, Bool.toNat_true] at hpending
          rw [leaves]
          simp only [Countdown.release, Task.isRunning, Task.stop, reduceCtorEq, decide_false,
            Bool.toNat_false]
          omega
        · rw [Task.isStarted_stop hr]
          exact h.relay
    | @begin r =>
      refine h.of_eq leaves rfl rfl rfl rfl rfl ?_
      cases r <;> simp [Request.call, Call.isRelaying]
    | @call i c c' ch' hcall m =>
      simp only [binds?, hcall, Option.bind_some] at hb
      obtain ⟨hp, hcp, hph, hle⟩ := m.permits hcall hb h h.pending
      refine ⟨?_, ?_, ?_⟩
      · rw [leaves]
        exact hp
      · rw [hcp, hph]
        exact h.consumer
      · have hn := countP_set_add Call.isRelaying hcall c'
        have hr := h.relay
        simp only [m.calls_eq]
        omega
    | _ => exact h.of_eq leaves rfl rfl rfl rfl rfl rfl

/-! ## The reservation, as long as the channel is not closed -/

/-- When the reservation is held in a channel that was not closed. -/
structure Reserves (ch : Channel) : Prop where
  waiting : 0 < ch.gate.remaining →
    ch.countdown.held.toNat + ch.calls.countP Call.isReserving = ch.handler.toNat
  opened : ch.gate.remaining = 0 → ch.countdown.held = ch.wirings.any Wiring.isReserved
  handed : ∀ permit, .spawnConsumer permit ∈ ch.wirings → permit = true
  consumer : ch.consumer.phase = .running → ch.consumerPermit = true

theorem WiringMove.reserved (m : WiringMove ch w ch' w') (hc : ch.closed = false)
    (hw : w ≠ .finished) (ha : w ≠ .abort) (h : ch.countdown.held = w.isReserved)
    (hp : ∀ permit, w = .spawnConsumer permit → permit = true)
    (hr : ch.consumer.phase = .running → ch.consumerPermit = true) :
    ch'.countdown.held = w'.isReserved ∧ (∀ permit, w' = .spawnConsumer permit → permit = true) ∧
      (ch'.consumer.phase = .running → ch'.consumerPermit = true) := by
  cases m with
  | closed hcl | recheckClosed hcl =>
    rw [hc] at hcl
    cases hcl
  | takePermit =>
    refine ⟨Countdown.held_take _, fun permit he => ?_, hr⟩
    rw [Countdown.take_fst] at he
    cases he
    exact h
  | spawnConsumer => exact ⟨h, nofun, fun _ => hp _ rfl⟩
  | giveBack => exact ⟨Countdown.held_discard _, nofun, hr⟩
  | finished => exact (hw rfl).elim
  | abort => exact (ha rfl).elim
  | _ => exact ⟨h, nofun, hr⟩

theorem Binds.reserves (b : Binds ch w ch') (h : ch.Reserves) (ho : ch.Open)
    (hc : ch.closed = false) : ch'.Reserves := by
  cases b with
  | @step w' ch₁ v cs m hw hg hne hat hw' hv hcs =>
    have ha := ho.ne_abort hw
    have hheld := h.opened hg
    rw [hw, List.any_cons, List.any_nil, Bool.or_false] at hheld
    obtain ⟨hheld', hhanded, hcons⟩ := m.reserved hc hne ha hheld
      (fun permit he => h.handed permit (by rw [hw, he]; exact List.mem_singleton_self _))
      h.consumer
    refine ⟨fun hpos => ?_, fun _ => ?_, fun permit hm => ?_, hcons⟩
    · rw [m.gate_eq] at hpos
      omega
    · rw [wirings, hw', hheld']
      split
      · rename_i hf
        rw [hf]
        rfl
      · simp
    · rw [wirings, hw'] at hm
      split at hm
      · cases hm
      · exact hhanded permit (List.mem_singleton.1 hm).symm

/-- A call that is about to reserve a permit is still to arrive at the gate. -/
theorem reserving_le_due (ch : Channel) :
    ch.calls.countP Call.isReserving ≤ ch.due := by
  refine Nat.le_trans (List.countP_mono_left fun c _ hc => ?_) (Nat.le_add_left ..)
  cases c <;> first | rfl | cases hc

/-- Once the gate is open the reservation has been made. -/
theorem held_of_open (h : ch.Gathers) (hg : ch.gate.remaining = 0)
    (hr : ch.countdown.held.toNat + ch.calls.countP Call.isReserving = ch.handler.toNat) :
    ch.countdown.held = true := by
  obtain ⟨hdue, -, -, hh⟩ := all_signals h.signals hg
  have hle := ch.reserving_le_due
  rw [hh, Bool.toNat_true] at hr
  rw [← Bool.toNat_eq_one]
  omega

/-- What a call that does not bind the streams does to the reservation. -/
theorem CallMove.reserves {i : Nat} {c c' : Call} (m : CallMove ch c ch' c')
    (hi : ch.calls[i]? = some c) (hw : c.wiring? = none) (hcl : c.isClosing = false)
    (h : 0 < ch.gate.remaining →
      ch.countdown.held.toNat + ch.calls.countP Call.isReserving = ch.handler.toNat)
    (hd : ch.gate.remaining = 0 → ch.due = 0) :
    (ch.gate.remaining = 0 → ch'.countdown = ch.countdown) ∧
      (0 < ch.gate.remaining → ch'.countdown.held.toNat + c'.isReserving.toNat + ch.handler.toNat =
        ch.countdown.held.toNat + c.isReserving.toNat + ch'.handler.toNat) ∧
      ch'.consumer = ch.consumer ∧ ch'.consumerPermit = ch.consumerPermit := by
  cases m with
  | reserve | reserveRelay =>
    refine ⟨fun hg => ?_, fun hg => ?_, rfl, rfl⟩
    · have hpos := due_pos_of_call hi rfl
      rw [hd hg] at hpos
      cases hpos
    · have hpos := countP_pos Call.isReserving hi rfl
      have hle := ch.handler.toNat_le
      have hh : ch.countdown.held = false := by
        rw [← Bool.toNat_eq_zero]
        have := h hg
        omega
      simp [Countdown.reserve_of_not_held hh, hh, Call.isReserving]
  | relayOutput =>
    refine ⟨fun hg => ?_, fun _ => rfl, rfl, rfl⟩
    have hpos := due_pos_of_call hi rfl
    rw [hd hg] at hpos
    cases hpos
  | setEvents hn =>
    refine ⟨fun _ => rfl, fun _ => ?_, rfl, rfl⟩
    simp [hn, Call.isReserving]
  | giveBack | announceClosed | shutNobody | shutWorker | shutFailed | releaseListener
  | abortAcceptor | abortStreams | abortConsole => cases hcl
  | wire | wired => cases hw
  | _ => exact ⟨fun _ => rfl, fun _ => rfl, rfl, rfl⟩

theorem Reserves.of_leaves (h : ch.Reserves) (hg' : ch'.Gathers) (l : Leaves ch ch')
    (hheld : ch.gate.remaining = 0 → ch'.countdown.held = ch.countdown.held)
    (hwait : 0 < ch.gate.remaining → ch'.countdown.held.toNat +
        ch'.calls.countP Call.isReserving + ch.handler.toNat =
      ch.countdown.held.toNat + ch.calls.countP Call.isReserving + ch'.handler.toNat)
    (hcons : ch'.consumer.phase = .running → ch'.consumerPermit = true) : ch'.Reserves := by
  cases l with
  | same hw hg =>
    refine ⟨fun hpos => ?_, fun hz => ?_, fun permit hm => h.handed permit (hw ▸ hm), hcons⟩
    · have hpos' : 0 < ch.gate.remaining :=
        Nat.pos_of_ne_zero fun he => Nat.ne_of_gt hpos (hg.2 he)
      have := h.waiting hpos'
      have := hwait hpos'
      omega
    · rw [hheld (hg.1 hz), hw]
      exact h.opened (hg.1 hz)
  | opens hg hz hw hw' =>
    refine ⟨fun hpos => by omega, fun _ => ?_, fun permit hm => ?_, hcons⟩
    · have := h.waiting (by omega)
      have := hwait (by omega)
      rw [hw', held_of_open hg' hz (by omega)]
      rfl
    · simp [hw'] at hm

theorem held_ite_release (b : Bool) (c : Countdown) :
    (if b then c.release else c).held = c.held := by
  cases b <;> rfl

theorem Reserves.keeps (h : ch.Reserves) (hi : ch.Inv) (m : Move ch a ch')
    (hc : ch'.closed = false) : ch'.Reserves := by
  have ho := m.open_of_open hc
  have hopen := hi.open_of ho
  have hg' := hi.gathers.keeps hi.accepts m
  cases hb : ch.binds? a with
  | some w => exact (m.binds hi.gathers hb).reserves h hopen ho
  | none =>
    have leaves := (m.bystander hi.gathers hi.accepts hb).2
    cases m with
    | acceptor m =>
      cases m <;> exact h.of_leaves hg' leaves (fun _ => rfl) (fun _ => rfl) h.consumer
    | verifier m =>
      cases m with
      | wire hv | wired hv => simp [binds?, hv, Verifier.wiring?] at hb
      | _ => exact h.of_leaves hg' leaves (fun _ => rfl) (fun _ => rfl) h.consumer
    | consumer m =>
      cases m with
      | halt | failed | ended =>
        refine h.of_leaves hg' leaves (fun _ => held_ite_release ..) (fun _ => ?_) fun hr => ?_
        · simp only [held_ite_release]
        · cases hr
      | arrived | item => exact h.of_leaves hg' leaves (fun _ => rfl) (fun _ => rfl) h.consumer
    | producer m =>
      cases m <;> exact h.of_leaves hg' leaves (fun _ => rfl) (fun _ => rfl) h.consumer
    | relay m =>
      cases m <;> exact h.of_leaves hg' leaves (fun _ => rfl) (fun _ => rfl) h.consumer
    | @begin r =>
      refine h.of_leaves hg' leaves (fun _ => rfl) (fun _ => ?_) h.consumer
      cases r <;> simp [Request.call, Call.isReserving]
    | @call i c c' ch' hcall m =>
      simp only [binds?, hcall, Option.bind_some] at hb
      obtain ⟨hz, hwait, hcons, hperm⟩ := m.reserves hcall hb
        (hopen.calls c (List.mem_of_getElem? hcall)) h.waiting
        fun hg => (all_signals hi.gathers.signals hg).1
      refine h.of_leaves hg' leaves (fun hg => congrArg (·.held) (hz hg)) (fun hg => ?_) ?_
      · have hn := countP_set_add Call.isReserving hcall c'
        have := hwait hg
        simp only [m.calls_eq]
        omega
      · rw [hcons, hperm]
        exact h.consumer
    | _ => exact h.of_leaves hg' leaves (fun _ => rfl) (fun _ => rfl) h.consumer

end Channel

end WorkerLink
