import WorkerLink.Proofs.Channel.Closing

/-!
# Opening the gate and binding the streams

Each of the three signals is counted at the gate once (`Gathers.signals`), so the arrival that opens
the gate finds all of them there. At most one participant binds the streams, and the point that it
has reached says which streams were started and registered (`Wired`). Streams are started only for
a worker that is verified (`Admitted`).
-/

namespace WorkerLink

/-- Whether the outcome of verification is not shown to anybody yet. -/
def Verifier.isPending : Verifier → Bool
  | .absent | .spawned _ | .reading _ | .judged _ | .publishing _ => true
  | _ => false

/-- Whether the channel knows the outcome of verification. -/
def Verifier.isRecorded : Verifier → Bool
  | .arriving | .wiring _ | .finished => true
  | _ => false

/-- What the point that verification has reached says about the outcome that is shown and the one
that is recorded. -/
inductive Shows : Verifier → Option Authentication → Option Authentication → Prop where
  | pending {v : Verifier} (h : v.isPending = true) : Shows v none none
  | recording {o : Authentication} : Shows (.recording o) (some o) none
  | recorded {v : Verifier} {o : Authentication} (h : v.isRecorded = true) :
    Shows v (some o) (some o)

def Verifier.wiring? : Verifier → Option Wiring
  | .wiring w => some w
  | _ => none

def Call.wiring? : Call → Option Wiring
  | .wire w => some w
  | _ => none

theorem Call.eq_wire {c : Call} {w : Wiring} (h : c.wiring? = some w) : c = .wire w := by
  cases c <;> simp_all [Call.wiring?]

/-- Whether a call has registered something and is still to arrive at the gate. -/
def Call.isDue : Call → Bool
  | .reserve _ | .relayOutput | .arrive => true
  | _ => false

def Task.isStarted (t : Task) : Bool := decide (t.phase ≠ .absent)

/-- Which streams are started, and which are registered. -/
structure StreamsBound where
  consumerStarted : Bool := false
  consumerRegistered : Bool := false
  producerStarted : Bool := false
  producerRegistered : Bool := false
  deriving DecidableEq

/-- Both streams are started and registered. -/
def StreamsBound.both : StreamsBound := ⟨true, true, true, true⟩

/-- What is done when a point of binding the streams is reached. -/
def Wiring.streams : Wiring → StreamsBound
  | .spawnProducer => { consumerStarted := true }
  | .registerConsumer => { consumerStarted := true, producerStarted := true }
  | .registerProducer => ⟨true, true, true, false⟩
  | .recheck | .abort | .announce => .both
  | _ => {}

/-- Whether a point is reached only for a verified worker and with both registrations there. -/
def Wiring.isAdmitted : Wiring → Bool
  | .connect | .takePermit | .spawnConsumer _ | .spawnProducer | .registerConsumer
  | .registerProducer | .recheck | .abort | .announce => true
  | _ => false

/-- Whether a point is reached only if the streams cannot be bound. -/
def Wiring.isRefused : Wiring → Bool
  | .fail | .giveBack => true
  | _ => false

namespace Channel

variable {ch ch' : Channel} {a : Action} {w w' : Wiring}

/-- Which streams of a channel are started, and which are registered. -/
def streams (ch : Channel) : StreamsBound :=
  ⟨ch.consumer.isStarted, ch.consumer.registered, ch.producer.isStarted, ch.producer.registered⟩

/-- The worker is verified, and a command source and an event handler are registered. -/
structure Admitted (ch : Channel) : Prop where
  verified : ch.authentication = some .verified
  slot : ch.slot.isSome = true
  commands : ch.commands.isSome = true
  handler : ch.handler = true

/-- There was a reason not to bind the streams. -/
def Refused (ch : Channel) : Prop :=
  (∃ o, ch.authentication = some o ∧ o ≠ .verified) ∨ ch.closed = true ∨
    .error "Failed to open worker socket for streams" ∈ ch.log

/-- How a channel looks when somebody is about to take a step of binding the streams. -/
structure At (ch : Channel) (w : Wiring) : Prop where
  streams : ch.streams = w.streams
  verified : w = .gather → ch.authentication = some .verified
  admitted : w.isAdmitted = true → ch.Admitted
  refused : w.isRefused = true → ch.Refused

/-- Those that bind the streams, at the points that they have reached. -/
def wirings (ch : Channel) : List Wiring :=
  ch.verifier.wiring?.toList ++ ch.calls.filterMap Call.wiring?

/-- How a channel looks, by who binds the streams. -/
inductive Wired (ch : Channel) : List Wiring → Prop where
  | waiting (hg : 0 < ch.gate.remaining) (hs : ch.streams = {}) : Wired ch []
  | underWay {w : Wiring} (hg : ch.gate.remaining = 0) (hw : w ≠ .finished) (h : ch.At w) :
    Wired ch [w]
  | refused (hg : ch.gate.remaining = 0) (hs : ch.streams = {}) (h : ch.Refused) : Wired ch []
  | bound (hg : ch.gate.remaining = 0) (hs : ch.streams = .both) (h : ch.Admitted) : Wired ch []

/-- The number of signals that are there or still missing at the gate. -/
def signals (ch : Channel) : Nat :=
  ch.gate.remaining + ch.authentication.isSome.toNat + ch.commands.isSome.toNat +
    ch.handler.toNat

/-- The number of signals that are there and still to be counted at the gate. -/
def due (ch : Channel) : Nat :=
  (decide (ch.verifier = .arriving)).toNat + ch.calls.countP Call.isDue

/-- What holds of the gate and of binding the streams whenever it is looked at. -/
structure Gathers (ch : Channel) : Prop where
  shows : Shows ch.verifier ch.verified ch.authentication
  signals : ch.signals = readinessSignals + ch.due
  wired : Wired ch ch.wirings

/-! ## What stays -/

/-- What a move that does not bind the streams leaves as it is or only adds to. -/
structure Extends (ch ch' : Channel) : Prop where
  streams : ch'.streams = ch.streams
  authentication : ∀ o, ch.authentication = some o → ch'.authentication = some o
  slot : ch.slot.isSome = true → ch'.slot.isSome = true
  commands : ch.commands.isSome = true → ch'.commands.isSome = true
  handler : ch.handler = true → ch'.handler = true
  closed : ch.closed = true → ch'.closed = true
  log : ∀ r ∈ ch.log, r ∈ ch'.log

namespace Extends

theorem admitted (e : Extends ch ch') (h : ch.Admitted) : ch'.Admitted :=
  ⟨e.authentication _ h.verified, e.slot h.slot, e.commands h.commands, e.handler h.handler⟩

theorem refused (e : Extends ch ch') (h : ch.Refused) : ch'.Refused := by
  rcases h with ⟨o, ho, hn⟩ | hc | hl
  · exact .inl ⟨o, e.authentication o ho, hn⟩
  · exact .inr (.inl (e.closed hc))
  · exact .inr (.inr (e.log _ hl))

theorem stage (e : Extends ch ch') (h : ch.At w) : ch'.At w :=
  ⟨e.streams.trans h.streams, fun hw => e.authentication _ (h.verified hw),
    fun hw => e.admitted (h.admitted hw), fun hw => e.refused (h.refused hw)⟩

theorem wired {ws : List Wiring} (e : Extends ch ch') (h : Wired ch ws)
    (hg : ch'.gate.remaining = ch.gate.remaining ∨
      0 < ch'.gate.remaining ∧ 0 < ch.gate.remaining) : Wired ch' ws := by
  cases h with
  | waiting hr hs => exact .waiting (by omega) (e.streams.trans hs)
  | underWay hr hw h => exact .underWay (by omega) hw (e.stage h)
  | refused hr hs h => exact .refused (by omega) (e.streams.trans hs) (e.refused h)
  | bound hr hs h => exact .bound (by omega) (e.streams.trans hs) (e.admitted h)

end Extends

/-! ## Binding the streams -/

theorem WiringMove.gate_eq (m : WiringMove ch w ch' w') : ch'.gate = ch.gate := by
  cases m <;> rfl

theorem WiringMove.outcome_eq (m : WiringMove ch w ch' w') :
    ch'.verified = ch.verified ∧ ch'.authentication = ch.authentication ∧
      ch'.commands = ch.commands ∧ ch'.handler = ch.handler := by
  cases m <;> exact ⟨rfl, rfl, rfl, rfl⟩

theorem At.start (h : ch.streams = {}) : ch.At .start :=
  ⟨h, nofun, nofun, nofun⟩

/-- A step of binding the streams, once all signals are there. -/
theorem WiringMove.wired (m : WiringMove ch w ch' w') (hg : ch.gate.remaining = 0) (h : ch.At w)
    (hw : w ≠ .finished) {o : Authentication} (ho : ch.authentication = some o)
    (hs : ch.slot.isSome = true) (hc : ch.commands.isSome = true) (hh : ch.handler = true) :
    (w' ≠ .finished → ch'.At w') ∧ (w' = .finished → Wired ch' []) := by
  have st := h.streams
  have adm : w.isAdmitted = true → ch'.Admitted := fun hw => by
    obtain ⟨-, ha', hc', hh'⟩ := m.outcome_eq
    exact ⟨ha'.trans (h.admitted hw).verified, m.accepting.2.2.2.1 ▸ hs, hc' ▸ hc, hh' ▸ hh⟩
  have goes (hn : w' ≠ .finished) (hat : ch'.At w') :
      (w' ≠ .finished → ch'.At w') ∧ (w' = .finished → Wired ch' []) :=
    ⟨fun _ => hat, fun he => (hn he).elim⟩
  have ends (he : w' = .finished) (hwired : Wired ch' []) :
      (w' ≠ .finished → ch'.At w') ∧ (w' = .finished → Wired ch' []) :=
    ⟨fun hn => (hn he).elim, fun _ => hwired⟩
  cases m with
  | closed hcl => exact ends rfl (.refused hg st (.inr (.inl hcl)))
  | start =>
    refine goes (by simp) ⟨st, ?_, ?_, ?_⟩ <;> intro he <;> cases he
  | verified hv =>
    refine goes (by simp) ⟨st, fun _ => hv, ?_, ?_⟩ <;> intro he <;> cases he
  | unverified hn =>
    have hne : o ≠ .verified := fun he => hn (by rw [ho, he])
    refine goes (by simp) ⟨st, ?_, ?_, fun _ => .inl ⟨o, ho, hne⟩⟩ <;> intro he <;> cases he
  | gathered =>
    have hadm : ch.Admitted := ⟨h.verified rfl, hs, hc, hh⟩
    refine goes (by simp) ⟨st, ?_, fun _ => hadm, ?_⟩ <;> intro he <;> cases he
  | incomplete hi => simp [hs, hc, hh] at hi
  | connected | takePermit | recheckClosed | recheck =>
    refine goes (by simp) ⟨st, ?_, fun _ => adm rfl, ?_⟩ <;> intro he <;> cases he
  | unconnected =>
    refine goes (by simp) ⟨st, ?_, ?_, fun _ => .inr (.inr (by simp [error]))⟩ <;> intro he <;>
      cases he
  | fail =>
    refine goes (by simp) ⟨st, ?_, ?_, fun _ => h.refused rfl⟩ <;> intro he <;> cases he
  | giveBack => exact ends rfl (.refused hg st (h.refused rfl))
  | spawnConsumer | spawnProducer | registerConsumer | registerProducer =>
    refine goes (by simp) ⟨?_, ?_, fun _ => adm rfl, ?_⟩
    · simp_all [Channel.streams, Wiring.streams, Task.start, Task.register, Task.isStarted,
        StreamsBound.both]
    · intro he
      cases he
    · intro he
      cases he
  | abort | announce => exact ends rfl (.bound hg st (adm rfl))
  | finished => exact (hw rfl).elim

/-! ## The recorded outcome -/

end Channel

namespace Shows

variable {v w : Verifier} {shown recorded : Option Authentication} {o : Authentication}

theorem still_pending (h : Shows v shown recorded) (hv : v.isPending = true)
    (hw : w.isPending = true) : Shows w shown recorded := by
  cases h with
  | pending => exact .pending hw
  | recording => cases hv
  | recorded hr => cases v <;> simp_all [Verifier.isPending, Verifier.isRecorded]

theorem publish (h : Shows (.publishing o) shown recorded) :
    Shows (.recording o) (some o) recorded := by
  cases h with
  | pending => exact .recording
  | recorded hr => cases hr

theorem record (h : Shows (.recording o) shown recorded) :
    Shows .arriving shown (recorded.or (some o)) := by
  cases h with
  | pending hp | recorded hp => cases hp
  | recording => exact .recorded rfl

theorem still_recorded (h : Shows v shown recorded) (hv : v.isRecorded = true)
    (hw : w.isRecorded = true) : Shows w shown recorded := by
  cases h with
  | pending hp => cases v <;> simp_all [Verifier.isPending, Verifier.isRecorded]
  | recording => cases hv
  | recorded => exact .recorded hw

theorem none_of_recording (h : Shows (.recording o) shown recorded) : recorded = none := by
  cases h with
  | pending hp | recorded hp => cases hp
  | recording => rfl

theorem isRecorded (h : Shows v shown (some o)) : v.isRecorded = true := by
  cases h with
  | recorded hr => exact hr

theorem not_pending (h : Shows v (some o) recorded) : v.isPending = false := by
  cases h with
  | recording => rfl
  | recorded hr => cases v <;> first | rfl | cases hr

theorem outcome (h : Shows v shown recorded) (hv : v.isRecorded = true) :
    ∃ o, shown = some o ∧ recorded = some o := by
  cases h with
  | pending hp => cases v <;> simp_all [Verifier.isPending, Verifier.isRecorded]
  | recording => cases hv
  | recorded => exact ⟨_, rfl, rfl⟩

end Shows

namespace Channel

variable {ch ch' : Channel} {a : Action} {w w' : Wiring}

theorem VerifierMove.shows (m : VerifierMove ch ch')
    (h : Shows ch.verifier ch.verified ch.authentication) :
    Shows ch'.verifier ch'.verified ch'.authentication := by
  cases m with
  | begin hv | blind hv | read hv | complete hv | ended hv | broke hv | judge hv =>
    exact h.still_pending (by rw [hv]; rfl) rfl
  | publish hv =>
    rw [hv] at h
    exact h.publish
  | record hv =>
    rw [hv] at h
    exact h.record
  | opens hv | arrives hv | surplus hv => exact h.still_recorded (by rw [hv]; rfl) rfl
  | wire hv m | wired hv m =>
    obtain ⟨hs, ha, -⟩ := m.outcome_eq
    simp only [hs, ha]
    exact h.still_recorded (by rw [hv]; rfl) rfl

theorem CallMove.outcome_eq {c c' : Call} (m : CallMove ch c ch' c') :
    ch'.verifier = ch.verifier ∧ ch'.verified = ch.verified ∧
      ch'.authentication = ch.authentication := by
  cases m with
  | wire m | wired m => exact ⟨m.accepting.2.2.2.2.2.2.2, m.outcome_eq.1, m.outcome_eq.2.1⟩
  | _ => exact ⟨rfl, rfl, rfl⟩

theorem Move.shows (m : Move ch a ch') (hc : ch.Accepts)
    (h : Shows ch.verifier ch.verified ch.authentication) :
    Shows ch'.verifier ch'.verified ch'.authentication := by
  cases m with
  | acceptor m =>
    cases m with
    | verify ha | verifyBlind ha =>
      have hv := hc.claim
      rw [ha] at hv
      exact h.still_pending (by rw [hv.verify.2.2]; rfl) rfl
    | _ => exact h
  | verifier m => exact m.shows h
  | consumer m => cases m <;> exact h
  | producer m => cases m <;> exact h
  | relay m => cases m <;> exact h
  | call _ m =>
    obtain ⟨hv, hs, ha⟩ := m.outcome_eq
    simp only [hv, hs, ha]
    exact h
  | _ => exact h

/-! ## Counting the signals -/

/-- Once the gate is open, all signals are there and none is to be counted any more. -/
theorem all_signals (h : ch.signals = readinessSignals + ch.due) (hg : ch.gate.remaining = 0) :
    ch.due = 0 ∧ ch.authentication.isSome = true ∧ ch.commands.isSome = true ∧
      ch.handler = true := by
  have ha := ch.authentication.isSome.toNat_le
  have hc := ch.commands.isSome.toNat_le
  have hh := ch.handler.toNat_le
  simp only [Channel.signals, readinessSignals, hg] at h
  refine ⟨by omega, ?_, ?_, ?_⟩ <;> rw [← Bool.toNat_eq_one] <;> omega

theorem due_pos_of_arriving (h : ch.verifier = .arriving) : 0 < ch.due := by
  simp only [due, h, decide_true, Bool.toNat_true]
  omega

theorem due_pos_of_call {i : Nat} {c : Call} (h : ch.calls[i]? = some c) (hc : c.isDue = true) :
    0 < ch.due :=
  Nat.lt_of_lt_of_le (countP_pos _ h hc) (Nat.le_add_left ..)

theorem VerifierMove.signals (m : VerifierMove ch ch')
    (hs : Shows ch.verifier ch.verified ch.authentication)
    (h : ch.signals = readinessSignals + ch.due) :
    ch'.signals = readinessSignals + ch'.due := by
  cases m with
  | record hv =>
    rw [hv] at hs
    simp [Channel.signals, due, hv, hs.none_of_recording] at h ⊢
    omega
  | opens hv hg | arrives hv hg =>
    simp [Channel.signals, due, hv, hg] at h ⊢
    omega
  | surplus hv hg =>
    have := due_pos_of_arriving hv
    have := (all_signals h hg).1
    omega
  | wire hv m | wired hv m =>
    obtain ⟨-, ha, hc, hh⟩ := m.outcome_eq
    simp [Channel.signals, due, hv, m.gate_eq, ha, hc, hh, m.accepting.2.2.1] at h ⊢
    omega
  | begin hv | blind hv | read hv | complete hv | ended hv | broke hv | judge hv | publish hv =>
    simpa [Channel.signals, due, hv, advance, error, warn, onLink, closeDescriptor] using h

/-- A call registers a signal, and counts it later. -/
theorem CallMove.signals {i : Nat} {c c' : Call} (m : CallMove ch c ch' c')
    (hi : ch.calls[i]? = some c) (h : ch.signals = readinessSignals + ch.due) :
    ch'.signals + c.isDue.toNat = ch.signals + c'.isDue.toNat := by
  cases m with
  | setCommands hn => simp [Channel.signals, hn, Call.isDue]; omega
  | setEvents hn => simp [Channel.signals, hn, Call.isDue]
  | opens hg | arrives hg => simp [Channel.signals, hg, Call.isDue]; omega
  | surplus hg =>
    have := due_pos_of_call hi rfl
    have := (all_signals h hg).1
    omega
  | wire m | wired m =>
    obtain ⟨-, ha, hc, hh⟩ := m.outcome_eq
    simp [Channel.signals, m.gate_eq, ha, hc, hh, Call.isDue]
  | _ => rfl

theorem Move.signals (m : Move ch a ch') (hc : ch.Accepts)
    (hs : Shows ch.verifier ch.verified ch.authentication)
    (h : ch.signals = readinessSignals + ch.due) :
    ch'.signals = readinessSignals + ch'.due := by
  cases m with
  | acceptor m =>
    cases m with
    | verify ha | verifyBlind ha =>
      have hv := hc.claim
      rw [ha] at hv
      simpa [Channel.signals, due, hv.verify.2.2, openDescriptor] using h
    | _ => exact h
  | verifier m => exact m.signals hs h
  | consumer m => cases m <;> exact h
  | producer m => cases m <;> exact h
  | relay m => cases m <;> exact h
  | @begin r =>
    have hr : r.call.isDue = false := by cases r <;> rfl
    simpa [Channel.signals, due, hr] using h
  | @call i c c' ch' hi m =>
    have hm := m.signals hi h
    have hn := countP_set_add Call.isDue hi c'
    simp only [Channel.signals, due, m.calls_eq, m.outcome_eq.1] at hm h ⊢
    omega
  | _ => exact h

/-! ## Who binds the streams -/

theorem Task.isStarted_stop {t : Task} (h : t.phase = .running) :
    t.stop.isStarted = t.isStarted := by
  simp [Task.isStarted, Task.stop, h]

theorem streams_of_stop (hc : ch'.consumer = ch.consumer ∨
      ch.consumer.phase = .running ∧ ch'.consumer = ch.consumer.stop)
    (hp : ch'.producer = ch.producer ∨
      ch.producer.phase = .running ∧ ch'.producer = ch.producer.stop) :
    ch'.streams = ch.streams := by
  have keeps {t t' : Task} (h : t' = t ∨ t.phase = .running ∧ t' = t.stop) :
      t'.isStarted = t.isStarted ∧ t'.registered = t.registered := by
    rcases h with rfl | ⟨hr, rfl⟩
    · exact ⟨rfl, rfl⟩
    · exact ⟨Task.isStarted_stop hr, rfl⟩
  simp only [Channel.streams, keeps hc, keeps hp]

theorem AcceptorMove.extends (m : AcceptorMove ch ch') : Extends ch ch' := by
  cases m with
  | claim _ hs => exact ⟨rfl, fun _ => id, fun _ => rfl, id, id, id, fun _ => id⟩
  | refuse | giveUp | turnAway =>
    exact ⟨rfl, fun _ => id, id, id, id, id, fun _ => List.mem_append_left _⟩
  | _ => exact ⟨rfl, fun _ => id, id, id, id, id, fun _ => id⟩

theorem ConsumerMove.extends (m : ConsumerMove ch ch') : Extends ch ch' := by
  cases m with
  | halt hr | ended hr =>
    exact ⟨streams_of_stop (.inr ⟨hr, rfl⟩) (.inl rfl), fun _ => id, id, id, id, id, fun _ => id⟩
  | arrived | item => exact ⟨rfl, fun _ => id, id, id, id, id, fun _ => id⟩
  | failed hr =>
    exact ⟨streams_of_stop (.inr ⟨hr, rfl⟩) (.inl rfl), fun _ => id, id, id, id, id,
      fun _ => List.mem_append_left _⟩

theorem ProducerMove.extends (m : ProducerMove ch ch') : Extends ch ch' := by
  cases m with
  | halt hr | exhausted hr =>
    exact ⟨streams_of_stop (.inl rfl) (.inr ⟨hr, rfl⟩), fun _ => id, id, id, id, id, fun _ => id⟩
  | refused hr | unwritable hr =>
    exact ⟨streams_of_stop (.inl rfl) (.inr ⟨hr, rfl⟩), fun _ => id, id, id, id, id,
      fun _ => List.mem_append_left _⟩
  | sent => exact ⟨rfl, fun _ => id, id, id, id, id, fun _ => id⟩

theorem RelayMove.extends (m : RelayMove ch ch') : Extends ch ch' := by
  cases m with
  | read => exact ⟨rfl, fun _ => id, id, id, id, id, fun _ => id⟩
  | stop => exact ⟨rfl, fun _ => id, id, id, id, id, fun _ => List.mem_append_left _⟩

/-- Verification, as long as it does not bind the streams. -/
theorem VerifierMove.extends (m : VerifierMove ch ch')
    (hs : Shows ch.verifier ch.verified ch.authentication) (hw : ch.verifier.wiring? = none) :
    Extends ch ch' := by
  cases m with
  | blind | broke | surplus =>
    exact ⟨rfl, fun _ => id, id, id, id, id, fun _ => List.mem_append_left _⟩
  | publish =>
    refine ⟨rfl, fun _ => id, id, id, id, id, fun r hr => ?_⟩
    dsimp only
    split
    · exact hr
    · exact List.mem_append_left _ hr
  | record hv =>
    rw [hv] at hs
    exact ⟨rfl, fun o ho => by simp [hs.none_of_recording] at ho, id, id, id, id, fun _ => id⟩
  | wire hv | wired hv =>
    rw [hv] at hw
    cases hw
  | _ => exact ⟨rfl, fun _ => id, id, id, id, id, fun _ => id⟩

/-- A call, as long as it does not bind the streams. -/
theorem CallMove.extends {c c' : Call} {cs : List Call} (m : CallMove ch c ch' c')
    (hw : c.wiring? = none) : Extends ch { ch' with calls := cs } := by
  cases m with
  | setCommands => exact ⟨rfl, fun _ => id, id, fun _ => rfl, id, id, fun _ => id⟩
  | setEvents => exact ⟨rfl, fun _ => id, id, id, fun _ => rfl, id, fun _ => id⟩
  | close => exact ⟨rfl, fun _ => id, id, id, id, fun _ => rfl, fun _ => id⟩
  | surplus => exact ⟨rfl, fun _ => id, id, id, id, id, fun _ => List.mem_append_left _⟩
  | giveBack =>
    refine ⟨rfl, fun _ => id, id, id, id, id, fun r hr => ?_⟩
    dsimp only
    split
    · exact List.mem_append_left _ hr
    · exact hr
  | wire | wired => cases hw
  | _ => exact ⟨rfl, fun _ => id, id, id, id, id, fun _ => id⟩

/-- Whoever binds the streams is the only one that does, behind an open gate. -/
theorem Wired.of_mem {ws : List Wiring} (h : Wired ch ws) (hw : w ∈ ws) :
    ws = [w] ∧ ch.gate.remaining = 0 ∧ w ≠ .finished ∧ ch.At w := by
  cases h with
  | underWay hg hne hat =>
    obtain rfl := List.mem_singleton.1 hw
    exact ⟨rfl, hg, hne, hat⟩
  | waiting | refused | bound => cases hw

theorem mem_wirings_of_verifier (h : ch.verifier = .wiring w) : w ∈ ch.wirings := by
  simp [wirings, h, Verifier.wiring?]

theorem mem_wirings_of_call {i : Nat} (h : ch.calls[i]? = some (.wire w)) : w ∈ ch.wirings :=
  List.mem_append_right _ (List.mem_filterMap.2 ⟨_, List.mem_of_getElem? h, rfl⟩)

/-- Behind an open gate the outcome is recorded. -/
theorem Gathers.isRecorded (h : ch.Gathers) (hg : ch.gate.remaining = 0) :
    ch.verifier.isRecorded = true := by
  obtain ⟨o, ho⟩ := Option.isSome_iff_exists.1 (all_signals h.signals hg).2.1
  have hs := h.shows
  rw [ho] at hs
  exact hs.isRecorded

/-- A step of binding the streams, taken by the only one that binds them. -/
theorem WiringMove.next (m : WiringMove ch w ch' w') (h : ch.Gathers) (hc : ch.Accepts)
    (hw : w ∈ ch.wirings) :
    (w' ≠ .finished → Wired ch' [w']) ∧ (w' = .finished → Wired ch' []) := by
  obtain ⟨-, hg, hne, hat⟩ := h.wired.of_mem hw
  obtain ⟨-, ha, hcm, hh⟩ := all_signals h.signals hg
  obtain ⟨o, ho⟩ := Option.isSome_iff_exists.1 ha
  have hv : ch.verifier ≠ .absent := by
    intro hv
    have hr := h.isRecorded hg
    rw [hv] at hr
    cases hr
  obtain ⟨l, hl⟩ := hc.claim.isSome hv
  obtain ⟨hnext, hlast⟩ := m.wired hg hat hne ho (by rw [hl]; rfl) hcm hh
  exact ⟨fun hn => .underWay (m.gate_eq ▸ hg) hn (hnext hn), hlast⟩

/-- If one of a list is the only one, nothing stands around it. -/
theorem Wired.single {before after : List Wiring} (h : Wired ch (before ++ [w] ++ after)) :
    before = [] ∧ after = [] := by
  have len := congrArg List.length (h.of_mem (w := w) (by simp)).1
  simp only [List.length_append, List.length_singleton] at len
  exact ⟨List.length_eq_zero_iff.1 (by omega), List.length_eq_zero_iff.1 (by omega)⟩

/-- Who else is at which point does not matter. -/
theorem Wired.update {ws : List Wiring} (h : Wired ch ws) (v : Verifier) (cs : List Call) :
    Wired { ch with verifier := v, calls := cs } ws :=
  @Extends.wired ch _ _ ⟨rfl, fun _ => id, id, id, id, id, fun _ => id⟩ h (.inl rfl)

/-- Before the gate opens nobody binds the streams. -/
theorem Wired.before {ws : List Wiring} (h : Wired ch ws) (hg : 0 < ch.gate.remaining) :
    ws = [] ∧ ch.streams = {} := by
  cases h with
  | waiting _ hs => exact ⟨rfl, hs⟩
  | underWay hr | refused hr | bound hr => omega

theorem VerifierMove.keeps_wired (m : VerifierMove ch ch') (h : ch.Gathers) (hc : ch.Accepts) :
    Wired ch' ch'.wirings := by
  have quiet (hw : ch.verifier.wiring? = none) (hw' : ch'.verifier.wiring? = none)
      (hg : ch'.gate.remaining = ch.gate.remaining ∨
        0 < ch'.gate.remaining ∧ 0 < ch.gate.remaining) : Wired ch' ch'.wirings := by
    have he : ch'.wirings = ch.wirings := by rw [wirings, wirings, hw, hw', m.calls_eq]
    rw [he]
    exact (m.extends h.shows hw).wired h.wired hg
  have alone {w : Wiring} (hv : ch.verifier = .wiring w) :
      ch.calls.filterMap Call.wiring? = [] := by
    have hw : ch.wirings = [] ++ [w] ++ ch.calls.filterMap Call.wiring? := by
      rw [wirings, hv]
      rfl
    exact (Wired.single (hw ▸ h.wired)).2
  cases m with
  | opens hv hg =>
    obtain ⟨hws, hs⟩ := h.wired.before (by omega)
    have hcalls : ch.calls.filterMap Call.wiring? = [] := by
      simpa [wirings, hv, Verifier.wiring?] using hws
    rw [wirings, hcalls]
    exact .underWay rfl nofun (.start hs)
  | arrives hv hg => exact quiet (by rw [hv]; rfl) rfl (.inr ⟨by simp, by omega⟩)
  | @wire w w' ch' hv m hw =>
    have hws : wirings { ch' with verifier := .wiring w' } = [w'] := by
      simp [wirings, m.accepting.2.2.1, alone hv, Verifier.wiring?]
    rw [hws]
    exact ((m.next h hc (mem_wirings_of_verifier hv)).1 hw).update ..
  | @wired w ch' hv m =>
    have hws : wirings { ch' with verifier := .finished } = [] := by
      simp [wirings, m.accepting.2.2.1, alone hv, Verifier.wiring?]
    rw [hws]
    exact ((m.next h hc (mem_wirings_of_verifier hv)).2 rfl).update ..
  | begin hv | blind hv | read hv | complete hv | ended hv | broke hv | judge hv | publish hv
  | record hv | surplus hv => exact quiet (by rw [hv]; rfl) rfl (.inl rfl)

theorem CallMove.keeps_wired {i : Nat} {c c' : Call} (m : CallMove ch c ch' c')
    (hi : ch.calls[i]? = some c) (h : ch.Gathers) (hc : ch.Accepts) :
    Wired { ch' with calls := ch'.calls.set i c' }
      (wirings { ch' with calls := ch'.calls.set i c' }) := by
  obtain ⟨before, after, hold, hnew⟩ := filterMap_set_split Call.wiring? hi
  have hwirings : ch.wirings =
      ch.verifier.wiring?.toList ++ before ++ c.wiring?.toList ++ after := by
    simp [wirings, hold]
  have hwirings' : wirings { ch' with calls := ch'.calls.set i c' } =
      ch.verifier.wiring?.toList ++ before ++ c'.wiring?.toList ++ after := by
    simp [wirings, m.calls_eq, m.outcome_eq.1, hnew]
  have hwired := h.wired
  rw [hwirings] at hwired
  rw [hwirings']
  have quiet (hw : c.wiring? = none) (hw' : c'.wiring? = none)
      (hg : ch'.gate.remaining = ch.gate.remaining ∨
        0 < ch'.gate.remaining ∧ 0 < ch.gate.remaining) :
      Wired { ch' with calls := ch'.calls.set i c' }
        (ch.verifier.wiring?.toList ++ before ++ c'.wiring?.toList ++ after) := by
    rw [hw'] at hwirings' ⊢
    rw [hw] at hwired
    exact (m.extends hw).wired hwired hg
  cases m with
  | opens hg =>
    obtain ⟨hws, hs⟩ := hwired.before (by omega)
    simp only [List.append_eq_nil_iff] at hws
    rw [hws.1.1.1, hws.1.1.2, hws.2]
    exact .underWay rfl nofun (.start hs)
  | arrives hg => exact quiet rfl rfl (.inr ⟨by simp, by omega⟩)
  | @wire w w' ch' m hw =>
    obtain ⟨hb, ha⟩ := hwired.single
    rw [hb, ha]
    exact ((m.next h hc (mem_wirings_of_call hi)).1 hw).update ..
  | @wired w ch' m =>
    obtain ⟨hb, ha⟩ := hwired.single
    rw [hb, ha]
    exact ((m.next h hc (mem_wirings_of_call hi)).2 rfl).update ..
  | _ => exact quiet rfl rfl (.inl rfl)

namespace Gathers

theorem keeps (h : ch.Gathers) (hc : ch.Accepts) (m : Move ch a ch') : ch'.Gathers := by
  refine ⟨m.shows hc h.shows, m.signals hc h.shows h.signals, ?_⟩
  cases m with
  | acceptor m =>
    have he : ch'.wirings = ch.wirings := by
      have hclaim := hc.claim
      cases m with
      | verify ha | verifyBlind ha =>
        rw [ha] at hclaim
        simp [wirings, hclaim.verify.2.2, Verifier.wiring?, openDescriptor]
      | _ => rfl
    rw [he]
    refine m.extends.wired h.wired (.inl ?_)
    cases m <;> rfl
  | verifier m => exact m.keeps_wired h hc
  | consumer m =>
    have he := m.extends.wired h.wired
    cases m <;> exact he (.inl rfl)
  | producer m =>
    have he := m.extends.wired h.wired
    cases m <;> exact he (.inl rfl)
  | relay m =>
    have he := m.extends.wired h.wired
    cases m <;> exact he (.inl rfl)
  | @begin r =>
    have hr : r.call.wiring? = none := by cases r <;> rfl
    have hws : wirings { ch with calls := ch.calls ++ [r.call] } = ch.wirings := by
      simp [wirings, hr]
    rw [hws]
    exact h.wired.update ..
  | call hi m => exact m.keeps_wired hi h hc
  | _ =>
    exact @Extends.wired ch _ _ ⟨rfl, fun _ => id, id, id, id, id, fun _ => id⟩ h.wired (.inl rfl)

/-- Streams were started only for a verified worker, with both registrations there. -/
theorem admitted (h : ch.Gathers) (hs : ch.streams ≠ {}) : ch.Admitted := by
  have hw := h.wired
  generalize ch.wirings = ws at hw
  cases hw with
  | waiting _ hs' => exact (hs hs').elim
  | refused _ hs' => exact (hs hs').elim
  | bound _ _ h => exact h
  | @underWay w _ _ hat =>
    refine hat.admitted ?_
    have := hat.streams
    cases w <;> first | rfl | exact (hs this).elim

end Gathers

end Channel

end WorkerLink
