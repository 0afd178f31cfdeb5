import WorkerLink.Proofs.Channel.Admission
import WorkerLink.Proofs.Channel.Ending

/-!
# Closing a channel whose streams are being bound

The streams may be bound while the channel is closed, step by step between the steps of closing it.
When both have come to their end, whatever was started was told to stop, and the permit that was
reserved for the event consumer has been handed out once (`torn_down`).
-/

namespace WorkerLink.Channel

variable {ch ch' : Channel} {a : Action}

/-- Closing has come to its end, and so has binding the streams. -/
structure TornDown (ch : Channel) : Prop where
  closes : ch.Closes
  closed : ch.HasClosed
  opened : ch.gate.remaining = 0
  unwired : ch.wirings = []

theorem HasClosed.keeps (h : ch.HasClosed) (m : Move ch a ch') : ch'.HasClosed := by
  refine ⟨m.closed_of_closed h.1, ?_⟩
  intro c hm
  have hcalls := m.callsMove
  cases hcalls with
  | same he => exact h.2 c (he ▸ hm)
  | @begin r =>
    rcases List.mem_append.1 hm with hm | hm
    · exact h.2 c hm
    · rw [List.mem_singleton.1 hm, r.closing?_eq]
  | call hi mc =>
    rcases List.mem_or_eq_of_mem_set hm with hm | rfl
    · exact h.2 c hm
    · cases hp : c.closing? with
      | none => rfl
      | some point =>
        obtain ⟨before, hb, -⟩ := mc.closing_before h.1 hp
        rw [h.2 _ (List.mem_of_getElem? hi)] at hb
        cases hb

/-- Once closing has come to its end, nobody is left to hold a permit but a consumer or a console
relay that still runs, and who hands one on. -/
theorem Closes.pendingRelays_eq_zero (h : ch.Closes) (hc : ch.HasClosed)
    (hw : ∀ w ∈ ch.wirings, w.isHanding = false) (hcons : ch.consumer.isRunning = false)
    (hrelay : ch.relay.isRunning = false) : ch.pendingRelays = 0 := by
  have hpermit : ch.consumerPermit = false := by
    cases hp : ch.consumerPermit with
    | false => rfl
    | true =>
      rw [Task.isRunning, h.permits.consumer hp] at hcons
      cases hcons
  have hhanding : ch.wirings.countP Wiring.isHanding = 0 :=
    List.countP_eq_zero.2 fun w hm => by simp [hw w hm]
  rw [pendingRelays, h.permits.pending, h.ends.reservation (hc.passed 6), hhanding, hpermit, hrelay]
  rfl

namespace TornDown

theorem keeps (h : ch.TornDown) (m : Move ch a ch') : ch'.TornDown := by
  have hi := h.closes.inv
  obtain ⟨hopened, hunwired, -⟩ := m.stays_unwired hi.gathers hi.accepts h.opened h.unwired
  exact ⟨h.closes.keeps m, h.closed.keeps m, hopened, hunwired⟩

theorem step (h : ch.TornDown) (a : Action) : (ch.step a).TornDown := by
  rcases ch.step_cases a with hs | hm
  · rwa [hs]
  · exact h.keeps hm

theorem aborted (h : ch.TornDown) : ch.Aborted := by
  rcases h.closes.ends.streams (h.closed.passed 4) with ⟨w, hw, -⟩ | ha
  · rw [h.unwired] at hw
    cases hw
  · exact ha

theorem haltsRelay (h : ch.TornDown) : ch.HaltsRelay :=
  h.closes.ends.relay (h.closed.passed 5)

/-- The reserved permit has been handed out, and this was done once. -/
theorem handouts (h : ch.TornDown) : ch.countdown.handouts = 1 := by
  have hn := h.closes.handsOut
  have held := h.closes.ends.reservation (h.closed.passed 6)
  have hh := (all_signals h.closes.inv.gathers.signals h.opened).2.2.2
  have hcalls : ch.calls.countP Call.isReserving = 0 := by
    rw [List.countP_eq_zero]
    intro c hc hr
    have granted := h.closes.refuses h.closed.1 c hc
    cases c with
    | reserve => cases granted
    | _ => cases hr
  unfold HandsOut at hn
  rw [held, hcalls, hh] at hn
  exact hn

theorem pending_of_stopped (h : ch.TornDown) (hc : ch.consumer.isRunning = false)
    (hr : ch.relay.isRunning = false) : ch.pendingRelays = 0 :=
  h.closes.pendingRelays_eq_zero h.closed (by simp [h.unwired]) hc hr

end TornDown

/-! ## Tasks that were told to stop -/

theorem Task.isStarted_of_isRunning {t : Task} (h : t.isRunning = true) : t.isStarted = true := by
  have hp : t.phase = .running := by simpa [Task.isRunning] using h
  simp [Task.isStarted, hp]

theorem step_consumer_aborted (h : ch.consumer.isStarted = true → ch.consumer.aborted = true) :
    (ch.step (.task .consumer)).consumer.isRunning = false := by
  cases hr : ch.consumer.isRunning with
  | false =>
    have hn : ch.consumerStep = none := by simp [consumerStep, hr]
    simpa only [step, taskStep, hn, Option.getD_none] using hr
  | true =>
    have ha := h (Task.isStarted_of_isRunning hr)
    have hn : ch.consumerStep = some ch.stopConsumer := by simp [consumerStep, hr, ha]
    simp only [step, taskStep, hn, Option.getD_some]
    rfl

theorem step_producer_aborted (h : ch.producer.isStarted = true → ch.producer.aborted = true) :
    (ch.step (.task .producer)).producer.isRunning = false := by
  cases hr : ch.producer.isRunning with
  | false =>
    have hn : ch.producerStep = none := by simp [producerStep, hr]
    simpa only [step, taskStep, hn, Option.getD_none] using hr
  | true =>
    have ha := h (Task.isStarted_of_isRunning hr)
    have hn : ch.producerStep = some ch.stopProducer := by simp [producerStep, hr, ha]
    simp only [step, taskStep, hn, Option.getD_some]
    rfl

theorem step_relay_aborted (h : ch.HaltsRelay) :
    (ch.step (.task .relay)).relay.isRunning = false := by
  cases hr : ch.relay.isRunning with
  | false =>
    have hn : ch.relayStep = none := by simp [relayStep, hr]
    simpa only [step, taskStep, hn, Option.getD_none] using hr
  | true =>
    have ha := h (Task.isStarted_of_isRunning hr)
    have hn : ch.relayStep = some ch.stopRelay := by simp [relayStep, hr, ha]
    simp only [step, taskStep, hn, Option.getD_some]
    rfl

theorem Move.producer_others (m : Move ch (.task .producer) ch') :
    ch'.consumer = ch.consumer ∧ ch'.relay = ch.relay := by
  cases m with
  | producer m => cases m <;> exact ⟨rfl, rfl⟩
  | client ha => cases ha

theorem Move.relay_others (m : Move ch (.task .relay) ch') :
    ch'.consumer = ch.consumer ∧ ch'.producer = ch.producer := by
  cases m with
  | relay m => cases m <;> exact ⟨rfl, rfl⟩
  | client ha => cases ha

/-- Streams and console relay that were told to stop do so at their next steps. -/
theorem TornDown.stopped (h : ch.TornDown) :
    let after := ch.run [.task .consumer, .task .producer, .task .relay]
    after.consumer.isRunning = false ∧ after.producer.isRunning = false ∧
      after.relay.isRunning = false ∧ after.pendingRelays = 0 := by
  have h₁ := h.step (.task .consumer)
  have h₂ := h₁.step (.task .producer)
  -- each of them stops at its own step, and the steps of the others leave it stopped
  have hc := step_consumer_aborted h.aborted.1
  have hp := step_producer_aborted h₁.aborted.2
  have hr := step_relay_aborted h₂.haltsRelay
  have h₃ := h₂.step (.task .relay)
  simp only [run, List.foldl_cons, List.foldl_nil]
  generalize ch.step (.task .consumer) = ch₁ at *
  have hc₂ : (ch₁.step (.task .producer)).consumer.isRunning = false := by
    rcases ch₁.step_cases (.task .producer) with hs | m
    · rwa [hs]
    · rwa [m.producer_others.1]
  generalize ch₁.step (.task .producer) = ch₂ at *
  rcases ch₂.step_cases (.task .relay) with hs | m
  · rw [hs] at hr h₃ ⊢
    exact ⟨hc₂, hp, hr, h₃.pending_of_stopped hc₂ hr⟩
  · have hc₃ := hc₂
    rw [← m.relay_others.1] at hc₃
    rw [← m.relay_others.2] at hp
    exact ⟨hc₃, hp, hr, h₃.pending_of_stopped hc₃ hr⟩

/-- In every run, once the channel was closed and whoever bound the streams is done too, in whatever
order they took their steps, the state is `closed`, each stream that was started was told to stop,
and the permit reserved for the event consumer has been handed out exactly once. As soon as the
consumer and the console relay have stopped, as they and the command producer do with their next
step, no relay is pending. -/
theorem torn_down {m : Machine} {faults : Faults} {config : Config} {fresh : SessionId}
    {port : UInt16} {shape : Json.Shape} {start : Channel}
    (hstart : create m faults config fresh port shape = .ok start) (actions : List Action) :
    let ch := start.run actions
    ch.HasClosed → ch.gate.remaining = 0 → ch.wirings = [] →
      ch.state = .closed ∧
      (ch.consumer.isStarted = true → ch.consumer.aborted = true) ∧
      (ch.producer.isStarted = true → ch.producer.aborted = true) ∧
      ch.countdown.handouts = 1 ∧
      (ch.consumer.isRunning = false → ch.relay.isRunning = false → ch.pendingRelays = 0) ∧
      let after := ch.run [.task .consumer, .task .producer, .task .relay]
      after.consumer.isRunning = false ∧ after.producer.isRunning = false ∧
        after.relay.isRunning = false ∧ after.pendingRelays = 0 := by
  intro ch hclosed hopen hwired
  have h : ch.TornDown := ⟨(Closes.of_create hstart).run actions, hclosed, hopen, hwired⟩
  exact ⟨h.closes.ends.state (h.closed.passed 1), h.aborted.1, h.aborted.2, h.handouts,
    h.pending_of_stopped, h.stopped⟩

/-- A worker that sends its token, and both registrations. -/
def exampleBinding : List Action :=
  [.begin .connect, .call 0, .call 0, .call 0, .call 0, .makeQueue, .begin (.bindCommands 0),
    .call 1, .call 1, .call 1, .begin (.bindEvents false), .call 2, .call 2, .call 2, .call 2,
    .join, .send 0 exampleToken.bytes]

/-- The channel is closed after verification started both streams and before it registered them. -/
def closedWhileBinding : List Action :=
  exampleBinding ++ List.replicate 6 (.task .acceptor) ++ List.replicate 13 (.task .verifier) ++
    .begin .close :: List.replicate 7 (.call 3) ++ List.replicate 4 (.task .verifier)

theorem torn_down_of_closedWhileBinding :
    (exampleStart.run closedWhileBinding).consumer.isStarted = true ∧
      (exampleStart.run closedWhileBinding).consumer.aborted = true ∧
      (exampleStart.run closedWhileBinding).countdown.handouts = 1 := by
  have hs : (exampleStart.run closedWhileBinding).consumer.isStarted = true := by decide +kernel
  obtain ⟨-, ha, -, hh, -⟩ := torn_down create_exampleStart closedWhileBinding (by decide +kernel)
    (by decide +kernel) (by decide +kernel)
  exact ⟨hs, ha hs, hh⟩

end WorkerLink.Channel
