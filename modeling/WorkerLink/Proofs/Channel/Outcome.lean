import WorkerLink.Proofs.Channel.Playing
import WorkerLink.Proofs.Channel.Settling

/-!
# What a session comes to does not depend on the order

Once a scenario was played and all is settled, what the session has come to is a function of the
scenario, the token and the codec (`Scenario.observed`), whatever the order was.
-/

namespace WorkerLink

/-- What a session has come to. -/
structure Observed where
  state : Lifecycle
  authentication : Option Authentication
  /-- The signals that are missing for the streams to be bound. -/
  remaining : Nat
  /-- The relays that have not finished. -/
  pending : Nat
  /-- The events given to the handler. -/
  handled : List Json
  /-- The bytes written to the worker. -/
  written : Bytes

/-- What verification comes to that has read what it can of `b`, which ends the stream or not. -/
def Authentication.ofStream (id : SessionId) (b : Bytes) (ended : Bool) : Option Authentication :=
  if id.length ≤ b.length then some (.ofToken id (b.take id.length))
  else if ended then some .closedEarly
  else none

/-- An outcome that was not found blindly is that of the bytes written, by whether the stream has
come to an end. -/
theorem Verdict.ofStream_eq {id : SessionId} {log : List LogRecord} {s : Stream}
    {o : Authentication} (h : Verdict id log s o)
    (hb : .error "Failed to open worker socket for verification" ∉ log) :
    Authentication.ofStream id s.written (!s.isWritable) = some o := by
  rw [Authentication.ofStream, Stream.written]
  cases h with
  | early hn hover =>
    obtain ⟨hu, hw⟩ := hover.resolve_right hb
    rw [hu, List.append_nil, if_neg (Nat.not_le.2 hn), hw]
    rfl
  | complete hn =>
    have hle : id.length ≤ (s.taken ++ s.unread).length := by
      rw [List.length_append]
      omega
    rw [if_pos hle, List.take_append_of_le_length hn]

namespace Scenario

/-- Whether the event consumer stops: the stream ends, or a bad frame stands in it. -/
def isOver (s : Scenario) (id : SessionId) (c : Codec) : Bool :=
  s.ended || ((Decoder.ofBytes (s.stream.drop id.length)).remainder c).1.isSome

/-- What a session comes to in which a scenario is played. -/
def observed (s : Scenario) (id : SessionId) (c : Codec) : Observed :=
  match Authentication.ofStream id s.stream s.ended with
  | none => ⟨.authenticating, none, 1, 1 + s.output.toNat, [], []⟩
  | some .verified =>
    ⟨.ready, some .verified, 0, (!s.isOver id c).toNat + s.output.toNat,
      (Decoder.ofBytes (s.stream.drop id.length)).items c, c.encodeAll s.commands⟩
  | some o => ⟨.failed, some o, 0, s.output.toNat, [], []⟩

theorem bytesSent_workerActions (chunks : List Bytes) (ended : Bool) :
    Channel.bytesSent (workerActions chunks ended) = chunks.flatten := by
  have hm : (chunks.map (Action.send 0)).filterMap Action.chunk? = chunks := by
    rw [List.filterMap_map]
    exact List.filterMap_some
  cases ended <;>
    simp [Channel.bytesSent, workerActions, List.filterMap_cons, Action.chunk?, hm]

theorem any_isFinish_workerActions (chunks : List Bytes) (ended : Bool) :
    (workerActions chunks ended).any Action.isFinish = ended := by
  cases ended <;> simp [workerActions, Action.isFinish]

/-- The commands of a scenario are those that are sent to its queue. -/
theorem Plays.sentTo_eq {s : Scenario} {as : List Action} (h : s.Plays as) :
    sentTo 0 as = s.commands := by
  have hs : sentTo 0 as =
      (as.filterMap Action.sent?).filterMap fun x => if x.1 = 0 then some x.2 else none := by
    rw [sentTo, List.filterMap_filterMap]
    congr 1
    funext a
    cases a <;> rfl
  rw [hs, h.commands, List.filterMap_map]
  exact List.filterMap_some

end Scenario

namespace Channel

variable {ch : Channel} {as : List Action} {s : Scenario} {b : Bytes} {ended : Bool}

def observed (ch : Channel) : Observed :=
  ⟨ch.state, ch.authentication, ch.gate.remaining, ch.pendingRelays, ch.handled,
    (ch.link 0).outbound.written⟩

/-- All is settled and every call has returned. -/
structure Rests (ch : Channel) : Prop where
  settled : ch.isSettled = true
  returned : ∀ c ∈ ch.calls, c.isReturned = true

/-- All is settled, and the three calls were begun and have returned. -/
structure Done (ch : Channel) : Prop extends Rests ch where
  calls : ch.calls.length = 3

instance (ch : Channel) : Decidable ch.Rests :=
  decidable_of_iff (ch.isSettled = true ∧ ∀ c ∈ ch.calls, c.isReturned = true)
    ⟨fun ⟨hs, hr⟩ => ⟨hs, hr⟩, fun h => ⟨h.settled, h.returned⟩⟩

instance (ch : Channel) : Decidable ch.Done :=
  decidable_of_iff (ch.Rests ∧ ch.calls.length = 3)
    ⟨fun ⟨hr, hc⟩ => ⟨hr, hc⟩, fun h => ⟨h.toRests, h.calls⟩⟩

theorem Rests.countP (h : ch.Rests) {p : Call → Bool} (hp : ∀ r, p (.returned r) = false) :
    ch.calls.countP p = 0 := by
  refine List.countP_eq_zero.2 fun c hc => ?_
  have hr := h.returned c hc
  cases c with
  | returned r =>
    rw [hp r]
    nofun
  | _ => cases hr

/-! ## Where everybody is in the end -/

theorem Playing.preparations_of_done (h : Playing s ch as) (hb : s.Begins as) (hd : ch.Done)
    (k : Preparation) : ch.preparations k = 1 := by
  have hone := h.one hb
  have hsum := h.calls
  rw [hd.calls] at hsum
  have h1 := hone .connect
  have h2 := hone .commands
  have h3 := hone .events
  cases k <;> omega

/-- Each of the three calls has taken effect. -/
theorem Playing.prepared_of_done (h : Playing s ch as) (hb : s.Begins as) (hd : ch.Done)
    (k : Preparation) : ch.prepared k = true := by
  have hk := h.preparations_of_done hb hd k
  rw [preparations, hd.countP fun _ => by cases k <;> rfl, Nat.zero_add] at hk
  exact Bool.toNat_eq_one.1 hk

theorem Playing.accepting_of_done (h : Playing s ch as) (hb : s.Begins as) (hd : ch.Done) :
    ch.acceptor ≠ .absent := by
  intro ha
  have hl := h.prepared_of_done hb hd .connect
  simp only [prepared, ne_eq, decide_not, Bool.not_eq_true', decide_eq_false_iff_not] at hl
  have hh := (h.inv.open_of h.calm.closed).hands
  rw [hands, hd.countP fun _ => rfl] at hh
  simp [hl, ha] at hh

/-- Accepting waits for another client. -/
theorem Playing.acceptor_of_rests (h : Playing s ch as) (hr : ch.Rests)
    (hne : ch.acceptor ≠ .absent) :
    ch.acceptor = .waiting ∧ ch.backlog = [] := by
  have hwell := h.calm.acceptor
  rcases acceptor_of_isSettled hr.settled with ha | ha | ⟨ha, -, hb⟩
  · exact (hne ha).elim
  · rw [ha] at hwell
    cases hwell
  · exact ⟨ha, hb⟩

theorem Playing.alone_of_plays (h : Playing s ch as) (hp : s.Plays as) :
    ch.Alone s.stream s.ended := by
  obtain ⟨chunks, hs, hw⟩ := hp.worker
  have ha := h.attends
  rw [hw] at ha
  have hal := (ha.resolve_left fun hn => nomatch hn.1).2
  rwa [Scenario.bytesSent_workerActions, Scenario.any_isFinish_workerActions, hs] at hal

/-- The worker is in the slot, and verification has begun. -/
theorem Playing.slot_of_rests (h : Playing s ch as) (hr : ch.Rests) (hne : ch.acceptor ≠ .absent)
    (hal : ch.Alone b ended) : ch.slot = some 0 ∧ ch.verifier ≠ .absent := by
  obtain ⟨ha, hb⟩ := h.acceptor_of_rests hr hne
  have harr := hal.arrivals
  have hslot : ch.slot = some 0 := by
    simp only [arrivals, ha, hb, Acceptor.taken?, Option.toList_none, List.append_nil] at harr
    cases hs : ch.slot with
    | none => simp [hs] at harr
    | some l => simpa [hs] using harr
  have hclaim := h.inv.accepts.claim
  rw [ha, hslot] at hclaim
  refine ⟨hslot, ?_⟩
  generalize ch.unverified = u at hclaim
  generalize ch.verifier = v at hclaim
  cases hclaim with
  | started _ _ hv => exact hv

/-- Nobody binds the streams any more. -/
theorem Rests.wirings (h : ch.Rests) (hv : ch.verifier.wiring? = none) : ch.wirings = [] := by
  rw [Channel.wirings, hv, List.filterMap_eq_nil_iff.2 ?_]
  · rfl
  · intro c hc
    have hr := h.returned c hc
    cases c <;> first | rfl | cases hr

/-- Verification waits for more of the token, or is finished. -/
theorem Playing.verifier_of_rests (h : Playing s ch as) (hr : ch.Rests)
    (hne : ch.verifier ≠ .absent) :
    (∃ got, ch.verifier = .reading got) ∨ ch.verifier = .finished :=
  (h.inv.gathers.verifier_of_isSettled hr.settled).resolve_left hne

/-- The signals that are missing at the gate; the two registrations are there. -/
theorem Playing.remaining_of_done (h : Playing s ch as) (hb : s.Begins as) (hd : ch.Done)
    (hv : ch.verifier ≠ .arriving) :
    ch.gate.remaining + ch.authentication.isSome.toNat = 1 := by
  have hsignals := h.inv.gathers.signals
  have hc := h.prepared_of_done hb hd .commands
  have he := h.prepared_of_done hb hd .events
  simp only [prepared] at hc he
  rw [signals, due, hd.countP fun _ => rfl, hc, he, decide_eq_false hv,
    readinessSignals] at hsignals
  simp only [Bool.toNat_true, Bool.toNat_false] at hsignals
  omega

/-- The relays that have not finished: the reservation is held or the event consumer runs, and the
console relay runs if the worker's output is relayed. -/
theorem Playing.pendingRelays_eq (h : Playing s ch as) (hb : s.Begins as) (hd : ch.Done)
    (hv : ch.verifier.wiring? = none) :
    ch.pendingRelays =
      ch.countdown.held.toNat + ch.consumerPermit.toNat + s.output.toNat := by
  have hrelay : ch.relay.isRunning.toNat = s.output.toNat := by
    have hr := h.relays
    rw [hd.countP fun _ => rfl, Nat.zero_add, h.preparations_of_done hb hd] at hr
    rw [hr]
    cases s.output <;> rfl
  rw [pendingRelays, h.permits.pending, hd.wirings hv, hrelay]
  rfl

theorem Playing.consumerPermit_false (h : Playing s ch as) (hp : ch.consumer.phase ≠ .running) :
    ch.consumerPermit = false :=
  Bool.not_eq_true _ ▸ fun hc => hp (h.permits.consumer hc)

/-! ## The outcome of verification -/

/-- Verification has nothing to do only if it has read all there is and the stream goes on. -/
theorem Inv.ofStream_of_reading (h : ch.Inv) {l : LinkId} (hs : ch.slot = some l) {got : Bytes}
    (hv : ch.verifier = .reading got) (hstep : ch.verifierStep = none) :
    Authentication.ofStream ch.session (ch.link l).inbound.written
      (!(ch.link l).inbound.isWritable) = none := by
  obtain ⟨-, -, ht⟩ := h.listens.reading h.gathers h.accepts hv hs
  obtain ⟨htaken, hlt⟩ := ht
  have hrec := (ch.link l).inbound.receives (Nat.sub_pos_of_lt hlt)
  simp only [verifierStep, hv, readToken, hs] at hstep
  generalize (ch.link l).inbound.receive (ch.session.length - got.length) = found at hstep hrec
  obtain ⟨found, x⟩ := found
  cases hrec with
  | data =>
    simp only at hstep
    split at hstep <;> cases hstep
  | failed | finished => cases hstep
  | nothing hu _ he ha =>
    have hw : (ch.link l).inbound.isWritable = true := by rw [Stream.isWritable, he, ha]; rfl
    rw [Authentication.ofStream, Stream.written, hu, List.append_nil, htaken,
      if_neg (Nat.not_le.2 hlt), hw]
    rfl

/-- What verification comes to, over a connection on which the worker sends alone. -/
theorem Alone.ofStream_eq (h : ch.Alone b ended) (id : SessionId) :
    Authentication.ofStream id b ended = Authentication.ofStream id (ch.link 0).inbound.written
      (!(ch.link 0).inbound.isWritable) := by
  rw [h.sends.written, h.sends.isWritable, Bool.not_not]

/-- Verification waits as long as the token is not complete and the stream goes on. -/
theorem Playing.outcome_of_reading (h : Playing s ch as) (hr : ch.Rests) (hs : ch.slot = some 0)
    (hal : ch.Alone b ended) {got : Bytes} (hv : ch.verifier = .reading got) :
    Authentication.ofStream ch.session b ended = none := by
  rw [hal.ofStream_eq]
  exact h.inv.ofStream_of_reading hs hv (taskStep_of_isSettled hr.settled .verifier)

/-- A recorded outcome is that of the bytes which the worker has sent. -/
theorem Playing.outcome_of_recorded (h : Playing s ch as) (hs : ch.slot = some 0)
    (hal : ch.Alone b ended) (hv : ch.verifier.isRecorded = true) {o : Authentication}
    (ho : ch.authentication = some o) : Authentication.ofStream ch.session b ended = some o := by
  rw [hal.ofStream_eq]
  exact ((h.inv.listens.hears 0 hs).token.verdict hv ho).ofStream_eq
    fun hm => (h.calm.log _ hm).1 rfl

/-- Once the worker is accepted and all is settled, the recorded outcome of verification is that of
the bytes which the worker has sent, whatever else the owner has asked for. -/
theorem Playing.authentication_eq (h : Playing s ch as) (hr : ch.Rests)
    (hne : ch.acceptor ≠ .absent) (hal : ch.Alone b ended) :
    ch.authentication = Authentication.ofStream ch.session b ended := by
  obtain ⟨hs, hv⟩ := h.slot_of_rests hr hne hal
  rcases h.verifier_of_rests hr hv with ⟨got, hv⟩ | hv
  · rw [h.outcome_of_reading hr hs hal hv]
    exact h.inv.gathers.authentication_none (by rw [hv]; rfl)
  · have hrec : ch.verifier.isRecorded = true := by rw [hv]; rfl
    obtain ⟨o, -, ho⟩ := h.inv.gathers.shows.outcome hrec
    rw [ho, h.outcome_of_recorded hs hal hrec ho]

/-! ## A token that is not complete -/

theorem Playing.observed_of_reading (h : Playing s ch as) (hp : s.Plays as) (hd : ch.Done)
    {got : Bytes} (hv : ch.verifier = .reading got) :
    ch.observed = s.observed ch.session ch.codec := by
  have hb := hp.begins
  have hal := h.alone_of_plays hp
  obtain ⟨hslot, -⟩ := h.slot_of_rests hd.toRests (h.accepting_of_done hb hd) hal
  have hn := h.inv.gathers.authentication_none (by rw [hv]; rfl)
  obtain ⟨hconsumer, hproducer⟩ := h.inv.gathers.phases (by simp [hn])
  have hstate : ch.state = .authenticating := by
    have hst := h.standing
    rw [Standing, hv] at hst
    exact hst
  have hremaining : ch.gate.remaining = 1 := by
    have hr := h.remaining_of_done hb hd (by simp [hv])
    rwa [hn] at hr
  have hheld : ch.countdown.held = true := by
    have hw := h.reserves.waiting (by rw [hremaining]; exact Nat.one_pos)
    have hhandler := h.prepared_of_done hb hd .events
    simp only [prepared] at hhandler
    rw [hd.countP fun _ => rfl, hhandler, Nat.add_zero] at hw
    exact Bool.toNat_eq_one.1 hw
  have hpending : ch.pendingRelays = 1 + s.output.toNat := by
    rw [h.pendingRelays_eq hb hd (by rw [hv]; rfl), hheld,
      h.consumerPermit_false (by simp [hconsumer])]
    rfl
  have hwritten := h.inv.unwritten 0 (.inr hproducer)
  rw [Scenario.observed, h.outcome_of_reading hd.toRests hslot hal hv, observed, hstate, hn,
    hremaining, hpending, (h.inv.listens.idle hconsumer).2, hwritten]

/-! ## A recorded outcome -/

/-- The streams are bound if the worker is verified, and not at all otherwise. -/
theorem Playing.bound_iff (h : Playing s ch as) (hg : ch.gate.remaining = 0)
    (hw : ch.wirings = []) :
    (ch.authentication = some .verified → ch.streams = .both) ∧
      (ch.authentication ≠ some .verified → ch.streams = {}) := by
  have hwired := h.inv.gathers.wired
  rw [hw] at hwired
  cases hwired with
  | waiting hpos => omega
  | refused _ hs hr =>
    refine ⟨fun hv => ?_, fun _ => hs⟩
    rcases hr with ⟨o, ho, hne⟩ | hc | hl
    · exact (hne (Option.some.inj (ho.symm.trans hv))).elim
    · rw [h.calm.closed] at hc
      cases hc
    · exact ((h.calm.log _ hl).2 rfl).elim
  | bound _ hs hadm => exact ⟨fun _ => hs, fun hn => (hn hadm.verified).elim⟩

theorem started_of_streams (h : ch.streams = .both) :
    ch.consumer.phase ≠ .absent ∧ ch.producer.phase ≠ .absent := by
  have hc := congrArg (·.consumerStarted) h
  have hp := congrArg (·.producerStarted) h
  simp only [streams, StreamsBound.both, Task.isStarted, decide_eq_true_eq] at hc hp
  exact ⟨hc, hp⟩

/-- Once verification is finished the gate is open and nobody binds the streams any more. -/
theorem Playing.gate_of_finished (h : Playing s ch as) (hb : s.Begins as) (hd : ch.Done)
    (hv : ch.verifier = .finished) : ch.gate.remaining = 0 ∧ ch.wirings = [] := by
  obtain ⟨o, -, ho⟩ := h.inv.gathers.shows.outcome (by rw [hv]; rfl)
  have hr := h.remaining_of_done hb hd (by simp [hv])
  rw [ho] at hr
  exact ⟨Nat.succ.inj hr, hd.wirings (by rw [hv]; rfl)⟩

theorem Playing.streams_of_verified (h : Playing s ch as) (hp : s.Plays as) (hd : ch.Done)
    (ho : ch.authentication = some .verified) : ch.streams = .both := by
  have hb := hp.begins
  obtain ⟨-, hne⟩ := h.slot_of_rests hd.toRests (h.accepting_of_done hb hd) (h.alone_of_plays hp)
  rcases h.verifier_of_rests hd.toRests hne with ⟨got, hv⟩ | hv
  · have hn := h.inv.gathers.authentication_none (by rw [hv]; rfl)
    rw [hn] at ho
    cases ho
  · obtain ⟨hgate, hw⟩ := h.gate_of_finished hb hd hv
    exact (h.bound_iff hgate hw).1 ho

/-- The event consumer stops if the stream ends or a bad frame stands in it. -/
theorem Playing.running_iff (h : Playing s ch as) (hp : s.Plays as) (hd : ch.Done)
    (hs : ch.slot = some 0) (hc : ch.consumer.phase ≠ .absent) :
    (ch.consumer.phase = .running ↔ s.isOver ch.session ch.codec = false) := by
  have hsends := (h.alone_of_plays hp).sends
  have hopen := h.inv.open_of h.calm.closed
  have hevents := (h.inv.listens.hears 0 hs).events
  unfold Events at hevents
  rw [Scenario.isOver, ← hsends.written]
  cases hph : ch.consumer.phase with
  | absent => exact (hc hph).elim
  | running =>
    rw [hph] at hevents
    obtain ⟨r, x, hstep⟩ := pending_of_consumerStep (taskStep_of_isSettled hd.settled .consumer)
      hph hopen.consumer h.calm.disabled hs
    have hreads := FrameReader.step_reads (c := ch.codec) (s := (ch.link 0).inbound) hevents.sound
    rw [hstep] at hreads
    obtain ⟨hu, hw, -, d, hrem, -⟩ := hevents.pending hreads
    rw [hsends.isWritable, Bool.not_eq_true'] at hw
    rw [Stream.written, hu, List.append_nil, hrem, hw]
    exact ⟨fun _ => rfl, fun _ => rfl⟩
  | stopped =>
    rw [hph] at hevents
    have hstopped := hevents.resolve_right fun hcd => by
      simp [h.calm.closed, h.calm.disabled] at hcd
    refine iff_of_false (by simp) fun hover => ?_
    obtain ⟨hend, hrem⟩ := Bool.or_eq_false_iff.1 hover
    rcases hstopped.cause with hbad | ⟨-, hw⟩
    · rw [hrem] at hbad
      cases hbad
    · rw [hsends.isWritable, hend] at hw
      cases hw

/-- Once verification is finished nobody holds the reservation any more. -/
theorem Playing.pending_of_finished (h : Playing s ch as) (hb : s.Begins as) (hd : ch.Done)
    (hv : ch.verifier = .finished) :
    ch.pendingRelays = ch.consumerPermit.toNat + s.output.toNat := by
  obtain ⟨hgate, hw⟩ := h.gate_of_finished hb hd hv
  have hheld : ch.countdown.held = false := by
    rw [h.reserves.opened hgate, hw]
    rfl
  rw [h.pendingRelays_eq hb hd (by rw [hv]; rfl), hheld, Bool.toNat_false, Nat.zero_add]

theorem Playing.observed_of_verified (h : Playing s ch as) (hp : s.Plays as) (hd : ch.Done)
    (hv : ch.verifier = .finished) (ho : ch.authentication = some .verified) :
    ch.observed = ⟨.ready, some .verified, 0,
      (!s.isOver ch.session ch.codec).toNat + s.output.toNat,
      (Decoder.ofBytes (s.stream.drop ch.session.length)).items ch.codec,
      ch.codec.encodeAll s.commands⟩ := by
  have hb := hp.begins
  have hsends := (h.alone_of_plays hp).sends
  obtain ⟨hslot, -⟩ := h.slot_of_rests hd.toRests (h.accepting_of_done hb hd) (h.alone_of_plays hp)
  obtain ⟨hgate, hw⟩ := h.gate_of_finished hb hd hv
  have hstreams := (h.bound_iff hgate hw).1 ho
  obtain ⟨started, written⟩ := started_of_streams hstreams
  have hready : ch.state = .ready := by
    rw [(standing_recorded (by rw [hv]; rfl)).1 h.standing _ ho, boundState, hw, hgate, hstreams]
    rfl
  have hhandled := h.inv.handled_eq hd.settled h.calm.closed h.calm.disabled started hslot
  rw [hsends.written] at hhandled
  have hqueue : ch.commands = some 0 := by
    have hc := h.prepared_of_done hb hd .commands
    simp only [prepared] at hc
    obtain ⟨q, hq⟩ := Option.isSome_iff_exists.1 hc
    obtain ⟨hlt, -⟩ := h.supplies.owns.known q (by simp [given, hq])
    rw [h.queues, Nat.lt_one_iff] at hlt
    rw [hq, hlt]
  have hwritten := h.supplies.written_eq h.inv hd.settled h.calm.closed h.calm.disabled written
    hslot hqueue hsends.kept
  rw [hp.sentTo_eq] at hwritten
  -- the event consumer keeps its permit for as long as it runs
  have hpermit : ch.consumerPermit = !s.isOver ch.session ch.codec := by
    have hiff := h.running_iff hp hd hslot started
    cases hover : s.isOver ch.session ch.codec with
    | false => exact h.reserves.consumer (hiff.2 hover)
    | true =>
      refine h.consumerPermit_false fun hr => ?_
      rw [hiff.1 hr] at hover
      cases hover
  rw [observed, hready, ho, hgate, h.pending_of_finished hb hd hv, hpermit, ← hhandled, hwritten]

theorem Playing.observed_of_refused (h : Playing s ch as) (hb : s.Begins as) (hd : ch.Done)
    (hv : ch.verifier = .finished) {o : Authentication} (ho : ch.authentication = some o)
    (hne : o ≠ .verified) :
    ch.observed = ⟨.failed, some o, 0, s.output.toNat, [], []⟩ := by
  obtain ⟨hgate, -⟩ := h.gate_of_finished hb hd hv
  have hnot : ch.authentication ≠ some .verified := by
    rw [ho]
    exact fun he => hne (Option.some.inj he)
  obtain ⟨hconsumer, hproducer⟩ := h.inv.gathers.phases hnot
  have hfailed : ch.state = .failed := by
    rw [(standing_recorded (by rw [hv]; rfl)).1 h.standing o ho,
      if_neg (by rwa [Authentication.isVerified_iff])]
  rw [observed, hfailed, ho, hgate, h.pending_of_finished hb hd hv,
    h.consumerPermit_false (by simp [hconsumer]), Bool.toNat_false, Nat.zero_add,
    (h.inv.listens.idle hconsumer).2, h.inv.unwritten 0 (.inr hproducer)]

theorem Playing.observed_of_finished (h : Playing s ch as) (hp : s.Plays as) (hd : ch.Done)
    (hv : ch.verifier = .finished) : ch.observed = s.observed ch.session ch.codec := by
  have hal := h.alone_of_plays hp
  obtain ⟨hslot, -⟩ := h.slot_of_rests hd.toRests (h.accepting_of_done hp.begins hd) hal
  have hrec : ch.verifier.isRecorded = true := by rw [hv]; rfl
  obtain ⟨o, -, ho⟩ := h.inv.gathers.shows.outcome hrec
  rw [Scenario.observed, h.outcome_of_recorded hslot hal hrec ho]
  cases o with
  | verified => exact h.observed_of_verified hp hd hv ho
  | mismatch => exact h.observed_of_refused hp.begins hd hv ho (by simp)
  | closedEarly => exact h.observed_of_refused hp.begins hd hv ho (by simp)

/-- Once a scenario was played and all is settled, what the session has come to is told by the
scenario, the token and the codec. -/
theorem Playing.observed_eq (h : Playing s ch as) (hp : s.Plays as) (hd : ch.Done) :
    ch.observed = s.observed ch.session ch.codec := by
  obtain ⟨-, hne⟩ := h.slot_of_rests hd.toRests (h.accepting_of_done hp.begins hd)
    (h.alone_of_plays hp)
  rcases h.verifier_of_rests hd.toRests hne with ⟨got, hv⟩ | hv
  · exact h.observed_of_reading hp hd hv
  · exact h.observed_of_finished hp hd hv

/-! ## Any two orders -/

/-- The codec and the token stay those that a channel starts with. -/
theorem fixed_of_makeQueue (start : Channel) (as : List Action) :
    ((start.step .makeQueue).run as).codec = start.codec ∧
      ((start.step .makeQueue).run as).session = start.session := by
  obtain ⟨hcodec, hdesc⟩ := (start.step .makeQueue).run_fixed as
  exact ⟨hcodec, congrArg Descriptor.session hdesc⟩

/-- What a session comes to depends on the scenario that is played alone: two runs in which the same
one is played in any order, each until all is settled, end with the same state, the same outcome of
verification, the same counts, the same events and the same bytes written. -/
theorem observed_eq_of_plays {m : Machine} {faults : Faults} {config : Config} {fresh : SessionId}
    {port : UInt16} {shape : Json.Shape} {start : Channel}
    (hstart : create m faults config fresh port shape = .ok start) {bs : List Action}
    (ha : s.Plays as) (hb : s.Plays bs) (hda : ((start.step .makeQueue).run as).Done)
    (hdb : ((start.step .makeQueue).run bs).Done) :
    ((start.step .makeQueue).run as).observed = ((start.step .makeQueue).run bs).observed := by
  have outcome {cs : List Action} (hp : s.Plays cs) (hd : ((start.step .makeQueue).run cs).Done) :
      ((start.step .makeQueue).run cs).observed = s.observed start.session start.codec := by
    have h := (playing_of_begins hstart hp.begins).observed_eq hp hd
    obtain ⟨hcodec, hsession⟩ := start.fixed_of_makeQueue cs
    rwa [hcodec, hsession] at h
  rw [outcome ha hda, outcome hb hdb]

/-- A worker that sends the token and one event, and a command for it. -/
def exampleScenario : Scenario :=
  ⟨[107, 0, 0, 0, 4, 110, 117, 108, 108], false, [.value (.bool true)], false⟩

/-- The owner is there first, and the worker sends everything at once. -/
def exampleEarly : List Action :=
  List.append [.begin .connect, .call 0, .call 0, .call 0, .call 0, .begin (.bindCommands 0),
    .call 1, .call 1, .call 1, .begin (.bindEvents false), .call 2, .call 2, .call 2, .call 2,
    .join, .command 0 (.value (.bool true)), .send 0 [107, 0, 0, 0, 4, 110, 117, 108, 108]]
    exampleSettling

theorem plays_exampleEarly : exampleScenario.Plays exampleEarly :=
  ⟨⟨[exampleScenario.stream], rfl, rfl⟩, rfl, by decide +kernel, by decide +kernel⟩

/-- The worker is there first and sends byte after byte, and the last call binds the streams. -/
def exampleLate : List Action :=
  List.flatten [[.join, .command 0 (.value (.bool true))],
    [107, 0, 0, 0, 4, 110, 117, 108, 108].map fun b => .send 0 [b],
    [.begin .connect, .call 0, .call 0, .call 0, .call 0], exampleSettling,
    [.begin (.bindEvents false), .call 1, .call 1, .call 1, .call 1, .begin (.bindCommands 0)],
    List.replicate 16 (.call 2), exampleSettling]

theorem observed_eq_of_examples :
    ((exampleStart.step .makeQueue).run exampleEarly).observed =
      ((exampleStart.step .makeQueue).run exampleLate).observed := by
  have late : exampleScenario.Plays exampleLate :=
    ⟨⟨exampleScenario.stream.map fun b => [b], rfl, rfl⟩, rfl, by decide +kernel, by decide +kernel⟩
  exact observed_eq_of_plays create_exampleStart plays_exampleEarly late (by decide +kernel)
    (by decide +kernel)

end Channel

end WorkerLink
