import WorkerLink.Proofs.Channel.Links

/-!
# What each step of a channel can do

Every step function of the channel is inverted once: `AcceptorMove`, `VerifierMove`, `WiringMove`,
`CallMove`, `ConsumerMove`, `ProducerMove` and `RelayMove` have one constructor for each thing that
a step can do, with its guard and the channel it leads to. `Move` puts them together with what comes
from outside. An invariant is then a case analysis on a move, and a field that a move leaves alone
needs no argument.
-/

namespace WorkerLink.Channel

variable {ch ch' : Channel}

/-! ## Accepting -/

/-- What a step of accepting can be. -/
inductive AcceptorMove (ch : Channel) : Channel → Prop where
  | abort (h : ch.acceptor = .waiting) (ha : ch.acceptorAborted = true) :
    AcceptorMove ch { ch with
      faults := ch.closeDescriptor.faults
      links := released ch.links ch.backlog, listener := .nobody, backlog := []
      acceptor := .stopped }
  | wake (h : ch.acceptor = .waiting) (hb : ch.backlog ≠ []) :
    AcceptorMove ch { ch with acceptor := .polling }
  | wait (h : ch.acceptor = .polling) (hb : ch.backlog = []) :
    AcceptorMove ch { ch with acceptor := .waiting }
  | take {l : LinkId} {rest : List LinkId} (h : ch.acceptor = .polling)
      (hb : ch.backlog = l :: rest) :
    AcceptorMove ch { ch.openDescriptor with backlog := rest, acceptor := .taken l }
  | refuse (h : ch.acceptor = .polling) (ho : ch.canOpen = false) (hu : ch.unverified = true) :
    AcceptorMove ch { ch.error "Failed to accept worker connection" with
      acceptor := .failing Errno.tooManyOpen.message }
  | giveUp (h : ch.acceptor = .polling) (ho : ch.canOpen = false) (hu : ch.unverified = false) :
    AcceptorMove ch { ch with
      log := ch.log ++ [.warn "Accept failed after worker connected, no longer listening"]
      faults := ch.closeDescriptor.faults
      links := released ch.links ch.backlog, listener := .nobody, backlog := []
      acceptor := .stopped }
  | turnAway {l x : LinkId} (h : ch.acceptor = .taken l) (hs : ch.slot = some x) :
    AcceptorMove ch { ch with
      links := ch.links.modify l Link.release, faults := ch.closeDescriptor.faults
      log := ch.log ++ [.warn "Another TCP client attempts to connect"], acceptor := .polling }
  | claim {l : LinkId} (h : ch.acceptor = .taken l) (hs : ch.slot = none) :
    AcceptorMove ch { ch with slot := some l, acceptor := .claimed l }
  | accept {l : LinkId} (h : ch.acceptor = .claimed l) (hu : ch.unverified = true) :
    AcceptorMove ch { ch.advance .accepted with unverified := false, acceptor := .announcing l }
  | skip {l : LinkId} (h : ch.acceptor = .claimed l) (hu : ch.unverified = false) :
    AcceptorMove ch { ch with acceptor := .polling }
  | announce {l : LinkId} (h : ch.acceptor = .announcing l) :
    AcceptorMove ch { ch with accepted := some (.accepted l), acceptor := .verifying l }
  | verify {l : LinkId} (h : ch.acceptor = .verifying l) (ho : ch.canOpen = true) :
    AcceptorMove ch { ch.openDescriptor with verifier := .spawned true, acceptor := .polling }
  | verifyBlind {l : LinkId} (h : ch.acceptor = .verifying l) (ho : ch.canOpen = false) :
    AcceptorMove ch { ch with verifier := .spawned false, acceptor := .polling }
  | fail {reason : String} (h : ch.acceptor = .failing reason) :
    AcceptorMove ch { ch.advance .failed with acceptor := .reporting reason }
  | report {reason : String} (h : ch.acceptor = .reporting reason) :
    AcceptorMove ch { ch with
      faults := ch.closeDescriptor.faults
      links := released ch.links ch.backlog, listener := .nobody, backlog := []
      accepted := some (.failed reason), acceptor := .stopped }

theorem acceptResult_cases (ch : Channel) :
    (ch.canOpen = false ∧ ch.acceptResult? = some (.error (.os Errno.tooManyOpen))) ∨
    (ch.backlog = [] ∧ ch.acceptResult? = none) ∨
    ∃ l rest, ch.backlog = l :: rest ∧ ch.acceptResult? = some (.connection l) := by
  unfold acceptResult?
  by_cases ho : ch.canOpen = true
  · cases hb : ch.backlog with
    | nil => simp [ho]
    | cons l rest => simp [ho]
  · simp [ho]

theorem acceptorStep_move (h : ch.acceptorStep = some ch') : AcceptorMove ch ch' := by
  unfold acceptorStep at h
  cases ha : ch.acceptor with
  | absent | stopped => simp [ha] at h
  | waiting =>
    simp only [ha] at h
    split at h
    · rename_i hab
      cases h
      rw [stopListening_eq]
      exact .abort ha hab
    · split at h
      · cases h
      · rename_i hb
        cases h
        exact .wake ha (by simpa using hb)
  | polling =>
    simp only [ha] at h
    rcases ch.acceptResult_cases with ⟨ho, hr⟩ | ⟨hb, hr⟩ | ⟨l, rest, hb, hr⟩
    · simp only [hr, Option.some.injEq, receive] at h
      by_cases hu : ch.unverified = true
      · rw [if_pos hu] at h
        subst h
        exact .refuse ha ho hu
      · rw [if_neg hu, stopListening_eq] at h
        subst h
        exact .giveUp ha ho (by simpa using hu)
    · simp only [hr, Option.some.injEq] at h
      subst h
      exact .wait ha hb
    · simp only [hr, Option.some.injEq, receive] at h
      subst h
      have he : ch.backlog.erase l = rest := by rw [hb, List.erase_cons_head]
      rw [he]
      exact .take ha hb
  | taken l =>
    simp only [ha] at h
    cases hs : ch.slot with
    | some x =>
      simp only [hs, Option.isSome_some, if_true, Option.some.injEq] at h
      subst h
      exact .turnAway ha hs
    | none =>
      simp only [hs, Option.isSome_none, Bool.false_eq_true, if_false, Option.some.injEq] at h
      subst h
      exact .claim ha hs
  | claimed l =>
    simp only [ha] at h
    split at h
    · rename_i hu
      cases h
      exact .accept ha hu
    · rename_i hu
      cases h
      exact .skip ha (by simpa using hu)
  | announcing l =>
    simp only [ha, Option.some.injEq] at h
    subst h
    exact .announce ha
  | verifying l =>
    simp only [ha, Option.some.injEq] at h
    subst h
    split
    · rename_i ho
      exact .verify ha ho
    · rename_i ho
      exact .verifyBlind ha (by simpa using ho)
  | failing reason =>
    simp only [ha, Option.some.injEq] at h
    subst h
    exact .fail ha
  | reporting reason =>
    simp only [ha, Option.some.injEq] at h
    subst h
    rw [stopListening_eq]
    exact .report ha

/-! ## Binding the streams -/

/-- What a step of binding the streams can be, from one point to the next. -/
inductive WiringMove (ch : Channel) : Wiring → Channel → Wiring → Prop where
  | closed (h : ch.closed = true) : WiringMove ch .start ch .finished
  | start (h : ch.closed = false) : WiringMove ch .start ch .judge
  | verified (h : ch.authentication = some .verified) : WiringMove ch .judge ch .gather
  | unverified (h : ch.authentication ≠ some .verified) :
    WiringMove ch .judge (ch.warn "Not binding streams to an unverified worker") .fail
  | gathered (hs : ch.slot.isSome = true) (hc : ch.commands.isSome = true)
      (hh : ch.handler = true) : WiringMove ch .gather ch .connect
  | incomplete (h : (ch.slot.isSome && ch.commands.isSome && ch.handler) = false) :
    WiringMove ch .gather (ch.error "Readiness gate opened without worker socket or bindings") .fail
  | connected (h : ch.canOpen = true) : WiringMove ch .connect ch.openDescriptor .takePermit
  | unconnected (h : ch.canOpen = false) :
    WiringMove ch .connect (ch.error "Failed to open worker socket for streams") .fail
  | fail : WiringMove ch .fail (ch.advance .failed) .giveBack
  | giveBack : WiringMove ch .giveBack { ch with countdown := ch.countdown.discard } .finished
  | takePermit : WiringMove ch .takePermit { ch with countdown := ch.countdown.take.2 }
      (.spawnConsumer ch.countdown.take.1)
  | spawnConsumer {permit : Bool} : WiringMove ch (.spawnConsumer permit)
      { ch with consumer := ch.consumer.start, consumerPermit := permit } .spawnProducer
  | spawnProducer : WiringMove ch .spawnProducer
      { ch with producer := ch.producer.start } .registerConsumer
  | registerConsumer : WiringMove ch .registerConsumer
      { ch with consumer := ch.consumer.register } .registerProducer
  | registerProducer : WiringMove ch .registerProducer
      { ch with producer := ch.producer.register } .recheck
  | recheckClosed (h : ch.closed = true) : WiringMove ch .recheck ch .abort
  | recheck (h : ch.closed = false) : WiringMove ch .recheck ch .announce
  | abort : WiringMove ch .abort ch.abortStreams .finished
  | announce : WiringMove ch .announce (ch.advance .ready) .finished
  | finished : WiringMove ch .finished ch .finished

theorem wire_move (ch : Channel) (w : Wiring) : WiringMove ch w (ch.wire w).1 (ch.wire w).2 := by
  cases w with
  | start =>
    cases h : ch.closed with
    | true => simpa [wire, h] using WiringMove.closed h
    | false => simpa [wire, h] using WiringMove.start h
  | judge =>
    by_cases h : ch.authentication = some .verified
    · simpa [wire, h] using WiringMove.verified h
    · simpa [wire, h] using WiringMove.unverified h
  | gather =>
    cases h : ch.slot.isSome && ch.commands.isSome && ch.handler with
    | true =>
      have hg := h
      simp only [Bool.and_eq_true] at hg
      simpa only [wire, h, if_true] using WiringMove.gathered hg.1.1 hg.1.2 hg.2
    | false => simpa only [wire, h, Bool.false_eq_true, if_false] using WiringMove.incomplete h
  | connect =>
    cases h : ch.canOpen with
    | true => simpa [wire, h] using WiringMove.connected h
    | false => simpa [wire, h] using WiringMove.unconnected h
  | recheck =>
    cases h : ch.closed with
    | true => simpa [wire, h] using WiringMove.recheckClosed h
    | false => simpa [wire, h] using WiringMove.recheck h
  | fail => exact .fail
  | giveBack => exact .giveBack
  | takePermit => exact .takePermit
  | spawnConsumer permit => exact .spawnConsumer
  | spawnProducer => exact .spawnProducer
  | registerConsumer => exact .registerConsumer
  | registerProducer => exact .registerProducer
  | abort => exact .abort
  | announce => exact .announce
  | finished => exact .finished

/-- What an arrival at the gate does. -/
theorem arrive_cases (ch : Channel) :
    (ch.gate.remaining = 1 ∧ ch.arrive = (true, { ch with gate := ⟨0⟩ })) ∨
    (∃ n, ch.gate.remaining = n + 2 ∧ ch.arrive = (false, { ch with gate := ⟨n + 1⟩ })) ∨
    (ch.gate.remaining = 0 ∧ ch.arrive = (false, ch.warn Gate.surplusWarning)) := by
  unfold arrive Gate.arrive
  match h : ch.gate.remaining with
  | 0 => exact .inr (.inr ⟨rfl, rfl⟩)
  | 1 => exact .inl ⟨rfl, rfl⟩
  | n + 2 => exact .inr (.inl ⟨n, rfl, rfl⟩)

/-! ## Verifying -/

/-- What a step of verification can be. -/
inductive VerifierMove (ch : Channel) : Channel → Prop where
  | begin (h : ch.verifier = .spawned true) :
    VerifierMove ch { ch.advance .authenticating with verifier := .reading [] }
  | blind (h : ch.verifier = .spawned false) :
    VerifierMove ch { ch.error "Failed to open worker socket for verification" with
      verifier := .judged .closedEarly }
  | read {got : Bytes} {l : LinkId} {b : Bytes} {s : Stream} (h : ch.verifier = .reading got)
      (hs : ch.slot = some l)
      (hr : (ch.link l).inbound.receive (ch.session.length - got.length) = (.data b, s))
      (hn : (got ++ b).length < ch.session.length) :
    VerifierMove ch { ch with
      links := ch.links.modify l fun x => { x with inbound := s }
      verifier := .reading (got ++ b) }
  | complete {got : Bytes} {l : LinkId} {b : Bytes} {s : Stream} (h : ch.verifier = .reading got)
      (hs : ch.slot = some l)
      (hr : (ch.link l).inbound.receive (ch.session.length - got.length) = (.data b, s))
      (hn : ch.session.length ≤ (got ++ b).length) :
    VerifierMove ch { ch with
      links := ch.links.modify l fun x => { x with inbound := s }
      faults := ch.closeDescriptor.faults
      verifier := .judged (.ofToken ch.session (got ++ b)) }
  | ended {got : Bytes} {l : LinkId} {s : Stream} (h : ch.verifier = .reading got)
      (hs : ch.slot = some l)
      (hr : (ch.link l).inbound.receive (ch.session.length - got.length) = (.finished, s)) :
    VerifierMove ch { ch with
      links := ch.links.modify l fun x => { x with inbound := s }
      faults := ch.closeDescriptor.faults
      verifier := .judged .closedEarly }
  | broke {got : Bytes} {l : LinkId} {e : Errno} {s : Stream} (h : ch.verifier = .reading got)
      (hs : ch.slot = some l)
      (hr : (ch.link l).inbound.receive (ch.session.length - got.length) = (.failed e, s)) :
    VerifierMove ch { ch with
      links := ch.links.modify l fun x => { x with inbound := s }
      log := ch.log ++ [.warn "Failed to read session id from worker"]
      faults := ch.closeDescriptor.faults
      verifier := .judged .closedEarly }
  | judge {o : Authentication} (h : ch.verifier = .judged o) :
    VerifierMove ch { ch.advance (if o.isVerified then .authenticated else .failed) with
      verifier := .publishing o }
  | publish {o : Authentication} (h : ch.verifier = .publishing o) :
    VerifierMove ch { ch with
      log := if o.isVerified then ch.log else ch.log ++ [.warn "Worker verification failed"]
      verified := some o, verifier := .recording o }
  | record {o : Authentication} (h : ch.verifier = .recording o) :
    VerifierMove ch { ch with
      authentication := ch.authentication.or (some o), verifier := .arriving }
  | opens (h : ch.verifier = .arriving) (hg : ch.gate.remaining = 1) :
    VerifierMove ch { ch with gate := ⟨0⟩, verifier := .wiring .start }
  | arrives {n : Nat} (h : ch.verifier = .arriving) (hg : ch.gate.remaining = n + 2) :
    VerifierMove ch { ch with gate := ⟨n + 1⟩, verifier := .finished }
  | surplus (h : ch.verifier = .arriving) (hg : ch.gate.remaining = 0) :
    VerifierMove ch { ch.warn Gate.surplusWarning with verifier := .finished }
  | wire {w w' : Wiring} {ch' : Channel} (h : ch.verifier = .wiring w) (m : WiringMove ch w ch' w')
      (hw : w' ≠ .finished) : VerifierMove ch { ch' with verifier := .wiring w' }
  | wired {w : Wiring} {ch' : Channel} (h : ch.verifier = .wiring w)
      (m : WiringMove ch w ch' .finished) : VerifierMove ch { ch' with verifier := .finished }

theorem readToken_move {got : Bytes} (hv : ch.verifier = .reading got)
    (h : ch.readToken got = some ch') : VerifierMove ch ch' := by
  unfold readToken at h
  cases hs : ch.slot with
  | none => simp [hs] at h
  | some l =>
    simp only [hs] at h
    match hr : (ch.link l).inbound.receive (ch.session.length - got.length) with
    | (.nothing, s) => simp [hr] at h
    | (.finished, s) =>
      simp only [hr, Option.some.injEq] at h
      subst h
      exact .ended hv hs hr
    | (.failed e, s) =>
      simp only [hr, Option.some.injEq] at h
      subst h
      exact .broke hv hs hr
    | (.data b, s) =>
      simp only [hr] at h
      split at h
      · rename_i hn
        cases h
        exact .read hv hs hr hn
      · rename_i hn
        cases h
        exact .complete hv hs hr (Nat.not_lt.1 hn)

theorem verifierStep_move (h : ch.verifierStep = some ch') : VerifierMove ch ch' := by
  unfold verifierStep at h
  cases hv : ch.verifier with
  | absent | finished | dropped => simp [hv] at h
  | spawned handle =>
    cases handle with
    | true =>
      simp only [hv, Option.some.injEq] at h
      subst h
      exact .begin hv
    | false =>
      simp only [hv, Option.some.injEq] at h
      subst h
      exact .blind hv
  | reading got =>
    simp only [hv] at h
    exact readToken_move hv h
  | judged o =>
    simp only [hv, Option.some.injEq] at h
    subst h
    exact .judge hv
  | publishing o =>
    simp only [hv, Option.some.injEq] at h
    subst h
    have hm := VerifierMove.publish hv
    cases ho : o.isVerified with
    | true => simpa [ho] using hm
    | false => simpa [ho, warn] using hm
  | recording o =>
    simp only [hv, Option.some.injEq] at h
    subst h
    exact .record hv
  | arriving =>
    simp only [hv, Option.some.injEq] at h
    subst h
    rcases ch.arrive_cases with ⟨hg, ha⟩ | ⟨n, hg, ha⟩ | ⟨hg, ha⟩
    · simpa [ha] using VerifierMove.opens hv hg
    · simpa [ha] using VerifierMove.arrives hv hg
    · simpa [ha] using VerifierMove.surplus hv hg
  | wiring w =>
    simp only [hv, Option.some.injEq] at h
    subst h
    have hm := ch.wire_move w
    by_cases hw : (ch.wire w).2 = .finished
    · rw [hw] at hm
      simpa only [hw, if_true] using VerifierMove.wired hv hm
    · simpa only [hw, if_false] using VerifierMove.wire hv hm hw

/-! ## Calls -/

/-- What a step of a call can be, from one point to the next. -/
inductive CallMove (ch : Channel) : Call → Channel → Call → Prop where
  | connectClosed (h : ch.closed = true) : CallMove ch .connect ch (.returned (.error .closed))
  | connect (h : ch.closed = false) : CallMove ch .connect ch .connectListener
  | takeListener (h : ch.listener = .owner) :
    CallMove ch .connectListener { ch with listener := .acceptor } .connectAnnounce
  | alreadyAccepting (h : ch.listener ≠ .owner) :
    CallMove ch .connectListener ch (.returned (.error .alreadyAccepting))
  | announceAccepting : CallMove ch .connectAnnounce (ch.advance .accepting) .connectSpawn
  | spawnAcceptor :
    CallMove ch .connectSpawn { ch with acceptor := .waiting } (.returned (.ok ()))
  | bindCommandsClosed {q : QueueId} (h : ch.closed = true) :
    CallMove ch (.bindCommands q) (ch.refuseQueue q) (.returned (.error .closed))
  | bindCommands {q : QueueId} (h : ch.closed = false) :
    CallMove ch (.bindCommands q) ch (.setCommands q)
  | commandsBound {q : QueueId} (h : ch.commands.isSome = true) :
    CallMove ch (.setCommands q) (ch.refuseQueue q) (.returned (.error .commandsBound))
  | setCommands {q : QueueId} (h : ch.commands = none) :
    CallMove ch (.setCommands q) { ch with commands := some q } .arrive
  | bindEventsClosed {output : Bool} (h : ch.closed = true) :
    CallMove ch (.bindEvents output) ch (.returned (.error .closed))
  | bindEvents {output : Bool} (h : ch.closed = false) :
    CallMove ch (.bindEvents output) ch (.setEvents output)
  | eventsBound {output : Bool} (h : ch.handler = true) :
    CallMove ch (.setEvents output) ch (.returned (.error .eventsBound))
  | setEvents {output : Bool} (h : ch.handler = false) :
    CallMove ch (.setEvents output) { ch with handler := true } (.reserve output)
  | reserve : CallMove ch (.reserve false) { ch with countdown := ch.countdown.reserve } .arrive
  | reserveRelay :
    CallMove ch (.reserve true) { ch with countdown := ch.countdown.reserve } .relayOutput
  | relayOutput : CallMove ch .relayOutput { ch with
      countdown := ch.countdown.acquire, relay := ch.relay.start.register } .arrive
  | opens (h : ch.gate.remaining = 1) : CallMove ch .arrive { ch with gate := ⟨0⟩ } (.wire .start)
  | arrives {n : Nat} (h : ch.gate.remaining = n + 2) :
    CallMove ch .arrive { ch with gate := ⟨n + 1⟩ } (.returned (.ok ()))
  | surplus (h : ch.gate.remaining = 0) :
    CallMove ch .arrive (ch.warn Gate.surplusWarning) (.returned (.ok ()))
  | wire {w w' : Wiring} {ch' : Channel} (m : WiringMove ch w ch' w') (hw : w' ≠ .finished) :
    CallMove ch (.wire w) ch' (.wire w')
  | wired {w : Wiring} {ch' : Channel} (m : WiringMove ch w ch' .finished) :
    CallMove ch (.wire w) ch' (.returned (.ok ()))
  | disable (h : (ch.consumer.registered || ch.producer.registered) = true) :
    CallMove ch .disable ch .cancel
  | disableUnbound (h : (ch.consumer.registered || ch.producer.registered) = false) :
    CallMove ch .disable ch (.returned (.ok ()))
  | cancel : CallMove ch .cancel { ch with disabled := true } (.returned (.ok ()))
  | close {dropping : Bool} (h : ch.closed = false) :
    CallMove ch (.close dropping .start) { ch with closed := true } (.close dropping .announce)
  | announceClosed {dropping : Bool} :
    CallMove ch (.close dropping .announce) (ch.advance .closed) (.close dropping .shutWorker)
  | shutNobody {dropping : Bool} (h : ch.slot = none) :
    CallMove ch (.close dropping .shutWorker) ch (.close dropping (.releaseListener (.ok ())))
  | shutWorker {dropping : Bool} {l : LinkId} (h : ch.slot = some l) :
    CallMove ch (.close dropping .shutWorker) (ch.onLink l Link.shutDown)
      (.close dropping (.releaseListener (.ok ())))
  | shutFailed {dropping : Bool} {l : LinkId} {code : Errno} (h : ch.slot = some l)
      (hf : ch.faults.shutdown = some code) :
    CallMove ch (.close dropping .shutWorker) ch (.close dropping (.releaseListener
      (if code = Errno.notConnected then .ok () else .error (.os code))))
  | releaseListener {dropping : Bool} {worker : Except IoError Unit} (h : ch.listener = .owner) :
    CallMove ch (.close dropping (.releaseListener worker)) { ch with
        faults := ch.closeDescriptor.faults
        acceptorAborted := ch.acceptorAborted || ch.acceptor != .absent
        links := released ch.links ch.backlog, listener := .nobody, backlog := [] }
      (.close dropping (.abortStreams [worker, ch.releaseListener.1]))
  | abortAcceptor {dropping : Bool} {worker : Except IoError Unit} (h : ch.listener ≠ .owner) :
    CallMove ch (.close dropping (.releaseListener worker)) { ch with
        acceptorAborted := ch.acceptorAborted || ch.acceptor != .absent }
      (.close dropping (.abortStreams [worker, .ok ()]))
  | abortStreams {dropping : Bool} {releases : List (Except IoError Unit)} :
    CallMove ch (.close dropping (.abortStreams releases)) ch.abortStreams
      (.close dropping (.abortConsole releases))
  | abortConsole {dropping : Bool} {releases : List (Except IoError Unit)} :
    CallMove ch (.close dropping (.abortConsole releases)) { ch with relay := ch.relay.abort }
      (.close dropping (.giveBack releases))
  | alreadyClosed {dropping : Bool} (h : ch.closed = true) :
    CallMove ch (.close dropping .start) { ch with dropped := dropping || ch.dropped }
      (.returned (.ok ()))
  | giveBack {dropping : Bool} {releases : List (Except IoError Unit)}
      {result : Except ChannelError Unit}
      (h : (ch.finishClosing dropping releases).2 = .returned result) :
    CallMove ch (.close dropping (.giveBack releases)) { ch with
        countdown := ch.countdown.discard, dropped := dropping || ch.dropped
        log := if dropping && !(CloseError.aggregate releases).toBool then
          ch.log ++ [.warn "Failed to close fork channel"] else ch.log }
      (.returned result)
  | returned {result : Except ChannelError Unit} :
    CallMove ch (.returned result) ch (.returned result)

theorem releaseListener_owner (h : ch.listener = .owner) :
    ch.releaseListener.2 = { ch with
      faults := ch.closeDescriptor.faults
      acceptorAborted := ch.acceptorAborted || ch.acceptor != .absent
      links := released ch.links ch.backlog, listener := .nobody, backlog := [] } := by
  simp only [releaseListener, h, if_true, stopListening_eq]
  rfl

theorem releaseListener_other (h : ch.listener ≠ .owner) :
    ch.releaseListener = (.ok (), { ch with
      acceptorAborted := ch.acceptorAborted || ch.acceptor != .absent }) := by
  simp only [releaseListener, if_neg h]

theorem finishClosing_eq (ch : Channel) (dropping : Bool) (releases : List (Except IoError Unit)) :
    (ch.finishClosing dropping releases).1 = { ch with
      dropped := dropping || ch.dropped
      log := if dropping && !(CloseError.aggregate releases).toBool then
        ch.log ++ [.warn "Failed to close fork channel"] else ch.log } := by
  unfold finishClosing
  cases CloseError.aggregate releases <;> cases dropping <;> rfl

theorem finishClosing_returned (ch : Channel) (dropping : Bool)
    (releases : List (Except IoError Unit)) :
    ∃ result, ∀ countdown, ({ ch with countdown }.finishClosing dropping releases).2 =
      .returned result := by
  unfold finishClosing
  cases CloseError.aggregate releases <;> cases dropping <;> exact ⟨_, fun _ => rfl⟩

theorem shutWorker_move (ch : Channel) (dropping : Bool) :
    CallMove ch (.close dropping .shutWorker) ch.shutWorker.2
      (.close dropping (.releaseListener ch.shutWorker.1)) := by
  unfold shutWorker
  cases hs : ch.slot with
  | none => exact .shutNobody hs
  | some l =>
    cases hf : ch.faults.shutdown with
    | none => exact .shutWorker hs
    | some code => exact .shutFailed hs hf

theorem closeStep_move (ch : Channel) (dropping : Bool) (point : Closing) :
    CallMove ch (.close dropping point) (ch.callStep (.close dropping point)).1
      (ch.callStep (.close dropping point)).2 := by
  cases point with
  | start =>
    cases h : ch.closed with
    | true =>
      have he : ch.callStep (.close dropping .start) =
          ({ ch with dropped := dropping || ch.dropped }, .returned (.ok ())) := by
        simp only [callStep, if_pos h]
        cases dropping <;> rfl
      rw [he]
      exact .alreadyClosed h
    | false => simpa [callStep, h] using CallMove.close h
  | announce => exact .announceClosed
  | shutWorker => exact ch.shutWorker_move dropping
  | releaseListener worker =>
    by_cases h : ch.listener = .owner
    · have hm := @CallMove.releaseListener ch dropping worker h
      rw [← releaseListener_owner h] at hm
      exact hm
    · have hm := @CallMove.abortAcceptor ch dropping worker h
      simpa only [callStep, releaseListener_other h] using hm
  | abortStreams releases => exact .abortStreams
  | abortConsole releases => exact .abortConsole
  | giveBack releases =>
    obtain ⟨result, hr⟩ := ch.finishClosing_returned dropping releases
    have hm := CallMove.giveBack (hr ch.countdown)
    simpa only [callStep, finishClosing_eq, hr] using hm

theorem callStep_move (ch : Channel) (c : Call) :
    CallMove ch c (ch.callStep c).1 (ch.callStep c).2 := by
  cases c with
  | connect =>
    cases h : ch.closed with
    | true => simpa [callStep, h] using CallMove.connectClosed h
    | false => simpa [callStep, h] using CallMove.connect h
  | connectListener =>
    by_cases h : ch.listener = .owner
    · simpa [callStep, h] using CallMove.takeListener h
    · simpa [callStep, h] using CallMove.alreadyAccepting h
  | connectAnnounce => exact .announceAccepting
  | connectSpawn => exact .spawnAcceptor
  | bindCommands q =>
    cases h : ch.closed with
    | true => simpa [callStep, h] using CallMove.bindCommandsClosed h
    | false => simpa [callStep, h] using CallMove.bindCommands h
  | setCommands q =>
    cases h : ch.commands with
    | some q' => simpa [callStep, h] using CallMove.commandsBound (q := q) (by rw [h]; rfl)
    | none => simpa [callStep, h] using CallMove.setCommands h
  | bindEvents output =>
    cases h : ch.closed with
    | true => simpa [callStep, h] using CallMove.bindEventsClosed h
    | false => simpa [callStep, h] using CallMove.bindEvents h
  | setEvents output =>
    cases h : ch.handler with
    | true => simpa [callStep, h] using CallMove.eventsBound h
    | false => simpa [callStep, h] using CallMove.setEvents h
  | reserve output =>
    cases output with
    | true => exact .reserveRelay
    | false => exact .reserve
  | relayOutput => exact .relayOutput
  | arrive =>
    rcases ch.arrive_cases with ⟨hg, ha⟩ | ⟨n, hg, ha⟩ | ⟨hg, ha⟩
    · simpa [callStep, ha] using CallMove.opens hg
    · simpa [callStep, ha] using CallMove.arrives hg
    · simpa [callStep, ha] using CallMove.surplus hg
  | wire w =>
    have hm := ch.wire_move w
    by_cases hw : (ch.wire w).2 = .finished
    · rw [hw] at hm
      simpa only [callStep, hw, if_true] using CallMove.wired hm
    · simpa only [callStep, hw, if_false] using CallMove.wire hm hw
  | disable =>
    cases h : ch.consumer.registered || ch.producer.registered with
    | true => simpa only [callStep, h, if_true] using CallMove.disable h
    | false =>
      simpa only [callStep, h, Bool.false_eq_true, if_false] using CallMove.disableUnbound h
  | cancel => exact .cancel
  | close dropping point => exact ch.closeStep_move dropping point
  | returned result => exact .returned

/-! ## Traffic -/

/-- What can go wrong after one of the streams has stopped: the last of the two closes the handle
that they share. -/
def faultsAfter (ch : Channel) (other : Task) : Faults :=
  if other.phase = .stopped then ch.closeDescriptor.faults else ch.faults

theorem stopConsumer_eq (ch : Channel) : ch.stopConsumer = { ch with
    faults := ch.faultsAfter ch.producer, consumer := ch.consumer.stop, consumerPermit := false
    countdown := if ch.consumerPermit then ch.countdown.release else ch.countdown } := by
  unfold stopConsumer faultsAfter
  split <;> rfl

theorem stopProducer_eq (ch : Channel) : ch.stopProducer = { ch with
    faults := ch.faultsAfter ch.consumer, producer := ch.producer.stop } := by
  unfold stopProducer faultsAfter
  split <;> rfl

/-- What a step of the event consumer can be. -/
inductive ConsumerMove (ch : Channel) : Channel → Prop where
  | halt (hr : ch.consumer.phase = .running) (h : (ch.consumer.aborted || ch.disabled) = true) :
    ConsumerMove ch { ch with
      faults := ch.faultsAfter ch.producer, consumer := ch.consumer.stop, consumerPermit := false
      countdown := if ch.consumerPermit then ch.countdown.release else ch.countdown }
  | arrived {l : LinkId} {r : FrameReader} {s : Stream} (hr : ch.consumer.phase = .running)
      (ha : ch.consumer.aborted = false) (hd : ch.disabled = false) (hs : ch.slot = some l)
      (h : ch.reader.step ch.codec (ch.link l).inbound = (.arrived, r, s)) :
    ConsumerMove ch { ch with
      links := ch.links.modify l fun x => { x with inbound := s }, reader := r }
  | item {l : LinkId} {v : Json} {r : FrameReader} {s : Stream}
      (hr : ch.consumer.phase = .running) (ha : ch.consumer.aborted = false)
      (hd : ch.disabled = false) (hs : ch.slot = some l)
      (h : ch.reader.step ch.codec (ch.link l).inbound = (.item v, r, s)) :
    ConsumerMove ch { ch with
      links := ch.links.modify l fun x => { x with inbound := s }
      reader := r, handled := ch.handled ++ [v] }
  | failed {l : LinkId} {e : IoError} {r : FrameReader} {s : Stream}
      (hr : ch.consumer.phase = .running) (ha : ch.consumer.aborted = false)
      (hd : ch.disabled = false) (hs : ch.slot = some l)
      (h : ch.reader.step ch.codec (ch.link l).inbound = (.failed e, r, s)) :
    ConsumerMove ch { ch with
      links := ch.links.modify l fun x => { x with inbound := s }, reader := r
      log := ch.log ++ [.error "Event stream error"]
      faults := ch.faultsAfter ch.producer, consumer := ch.consumer.stop, consumerPermit := false
      countdown := if ch.consumerPermit then ch.countdown.release else ch.countdown }
  | ended {l : LinkId} {r : FrameReader} {s : Stream} (hr : ch.consumer.phase = .running)
      (ha : ch.consumer.aborted = false) (hd : ch.disabled = false) (hs : ch.slot = some l)
      (h : ch.reader.step ch.codec (ch.link l).inbound = (.ended, r, s)) :
    ConsumerMove ch { ch with
      links := ch.links.modify l fun x => { x with inbound := s }, reader := r
      faults := ch.faultsAfter ch.producer, consumer := ch.consumer.stop, consumerPermit := false
      countdown := if ch.consumerPermit then ch.countdown.release else ch.countdown }

theorem consumerStep_move (h : ch.consumerStep = some ch') : ConsumerMove ch ch' := by
  unfold consumerStep at h
  by_cases hr : ch.consumer.isRunning = true
  case neg => simp [hr] at h
  simp only [hr, Bool.not_true, Bool.false_eq_true, if_false] at h
  have hp : ch.consumer.phase = .running := by simpa [Task.isRunning] using hr
  cases hh : ch.consumer.aborted || ch.disabled with
  | true =>
    simp only [hh, if_true, Option.some.injEq] at h
    rw [← h, stopConsumer_eq]
    exact .halt hp hh
  | false =>
    simp only [hh, Bool.false_eq_true, if_false] at h
    obtain ⟨ha, hd⟩ := Bool.or_eq_false_iff.1 hh
    cases hs : ch.slot with
    | none => simp [hs] at h
    | some l =>
      simp only [hs] at h
      match hstep : ch.reader.step ch.codec (ch.link l).inbound with
      | (.pending, r, s) => simp [hstep] at h
      | (.arrived, r, s) =>
        simp only [hstep, Option.some.injEq] at h
        subst h
        exact .arrived hp ha hd hs hstep
      | (.item v, r, s) =>
        simp only [hstep, Option.some.injEq] at h
        subst h
        exact .item hp ha hd hs hstep
      | (.failed e, r, s) =>
        simp only [hstep, Option.some.injEq] at h
        rw [← h, stopConsumer_eq]
        exact .failed hp ha hd hs hstep
      | (.ended, r, s) =>
        simp only [hstep, Option.some.injEq] at h
        rw [← h, stopConsumer_eq]
        exact .ended hp ha hd hs hstep

/-- What a step of the command producer can be. -/
inductive ProducerMove (ch : Channel) : Channel → Prop where
  | halt (hr : ch.producer.phase = .running) (h : (ch.producer.aborted || ch.disabled) = true) :
    ProducerMove ch { ch with
      faults := ch.faultsAfter ch.consumer, producer := ch.producer.stop }
  | exhausted {l : LinkId} {q : QueueId} {queue : CommandQueue Payload}
      (hr : ch.producer.phase = .running) (hs : ch.slot = some l) (hc : ch.commands = some q)
      (h : (ch.queues.getD q {}).next = (.exhausted, queue)) :
    ProducerMove ch { ch with
      faults := ch.faultsAfter ch.consumer, producer := ch.producer.stop }
  | refused {l : LinkId} {q : QueueId} {p : Payload} {queue : CommandQueue Payload} {e : IoError}
      (hr : ch.producer.phase = .running) (hs : ch.slot = some l) (hc : ch.commands = some q)
      (h : (ch.queues.getD q {}).next = (.item p, queue)) (he : ch.codec.encode p = .error e) :
    ProducerMove ch { ch with
      queues := ch.queues.modify q fun _ => queue
      log := ch.log ++ [.error "Failed to send command to worker"]
      faults := ch.faultsAfter ch.consumer, producer := ch.producer.stop }
  | unwritable {l : LinkId} {q : QueueId} {p : Payload} {queue : CommandQueue Payload} {b : Bytes}
      (hr : ch.producer.phase = .running) (hs : ch.slot = some l) (hc : ch.commands = some q)
      (h : (ch.queues.getD q {}).next = (.item p, queue)) (he : ch.codec.encode p = .ok b)
      (hw : (ch.link l).outbound.isWritable = false) :
    ProducerMove ch { ch with
      queues := ch.queues.modify q fun _ => queue
      log := ch.log ++ [.error "Failed to send command to worker"]
      faults := ch.faultsAfter ch.consumer, producer := ch.producer.stop }
  | sent {l : LinkId} {q : QueueId} {p : Payload} {queue : CommandQueue Payload} {b : Bytes}
      {s : Stream} (hr : ch.producer.phase = .running) (hs : ch.slot = some l)
      (hc : ch.commands = some q) (h : (ch.queues.getD q {}).next = (.item p, queue))
      (he : ch.codec.encode p = .ok b) (hw : (ch.link l).outbound.write b = .ok s) :
    ProducerMove ch { ch with
      queues := ch.queues.modify q fun _ => queue
      links := ch.links.modify l fun x => { x with outbound := s } }

theorem producerStep_move (h : ch.producerStep = some ch') : ProducerMove ch ch' := by
  unfold producerStep at h
  by_cases hr : ch.producer.isRunning = true
  case neg => simp [hr] at h
  simp only [hr, Bool.not_true, Bool.false_eq_true, if_false] at h
  have hp : ch.producer.phase = .running := by simpa [Task.isRunning] using hr
  cases hh : ch.producer.aborted || ch.disabled with
  | true =>
    simp only [hh, if_true, Option.some.injEq] at h
    rw [← h, stopProducer_eq]
    exact .halt hp hh
  | false =>
    simp only [hh, Bool.false_eq_true, if_false] at h
    cases hs : ch.slot with
    | none => simp [hs] at h
    | some l =>
      cases hc : ch.commands with
      | none => simp [hs, hc] at h
      | some q =>
        simp only [hs, hc] at h
        match hn : (ch.queues.getD q {}).next with
        | (.pending, queue) => simp only [hn, reduceCtorEq] at h
        | (.exhausted, queue) =>
          simp only [hn, Option.some.injEq] at h
          rw [← h, stopProducer_eq]
          exact .exhausted hp hs hc hn
        | (.item p, queue) =>
          simp only [hn] at h
          cases he : ch.codec.encode p with
          | error e =>
            simp only [he, Option.some.injEq] at h
            rw [← h, stopProducer_eq]
            exact .refused hp hs hc hn he
          | ok b =>
            simp only [he] at h
            cases hw : (ch.link l).outbound.write b with
            | error e =>
              simp only [hw, Option.some.injEq] at h
              rw [← h, stopProducer_eq]
              exact .unwritable hp hs hc hn he (Stream.write_error_inv hw)
            | ok s =>
              simp only [hw, Option.some.injEq] at h
              subst h
              exact .sent hp hs hc hn he hw

/-- What a step of the console relay can be. -/
inductive RelayMove (ch : Channel) : Channel → Prop where
  | read {b : Bytes} {splitter : Console.Splitter} (hr : ch.relay.phase = .running)
      (ha : ch.relay.aborted = false) (hb : ch.output.receiveAll.1 = .data b)
      (h : (ch.splitter.read b).next = .ok splitter) :
    RelayMove ch { ch with output := ch.output.receiveAll.2
                           lines := ch.lines ++ (ch.splitter.read b).lines, splitter }
  | stop {output : Stream} {lines : List String} {more : List LogRecord}
      (hr : ch.relay.phase = .running)
      (h : ch.relay.aborted = true ∨ ch.output.receiveAll.1 ≠ .nothing)
      (hm : more = [] ∨ more = [.warn "Console relay stopped"]) :
    RelayMove ch { ch with
      output, lines, log := ch.log ++ more
      relay := ch.relay.stop, countdown := ch.countdown.release }

theorem relayStep_move (h : ch.relayStep = some ch') : RelayMove ch ch' := by
  unfold relayStep at h
  by_cases hr : ch.relay.isRunning = true
  case neg => simp [hr] at h
  simp only [hr, Bool.not_true, Bool.false_eq_true, if_false] at h
  have hp : ch.relay.phase = .running := by simpa [Task.isRunning] using hr
  have quiet {output : Stream} {lines : List String}
      (hs : ch.relay.aborted = true ∨ ch.output.receiveAll.1 ≠ .nothing) :
      RelayMove ch { ch with
        output, lines, relay := ch.relay.stop, countdown := ch.countdown.release } := by
    have hm := @RelayMove.stop ch output lines [] hp hs (.inl rfl)
    rwa [List.append_nil] at hm
  cases ha : ch.relay.aborted with
  | true =>
    simp only [ha, if_true, Option.some.injEq] at h
    subst h
    exact quiet (.inl ha)
  | false =>
    simp only [ha, Bool.false_eq_true, if_false] at h
    have found {x : Stream.Received} (hx : ch.output.receiveAll.1 = x) (hn : x ≠ .nothing) :
        ch.relay.aborted = true ∨ ch.output.receiveAll.1 ≠ .nothing := .inr (hx ▸ hn)
    cases hb : ch.output.receiveAll.1 with
    | nothing => simp [hb] at h
    | failed e =>
      simp only [hb, Option.some.injEq] at h
      subst h
      exact .stop hp (found hb nofun) (.inr rfl)
    | finished =>
      simp only [hb] at h
      cases hf : ch.splitter.finish with
      | error e =>
        simp only [hf, Option.some.injEq] at h
        subst h
        exact .stop hp (found hb nofun) (.inr rfl)
      | ok line =>
        cases line with
        | none =>
          simp only [hf, Option.some.injEq] at h
          subst h
          exact quiet (found hb nofun)
        | some line =>
          simp only [hf, Option.some.injEq] at h
          subst h
          exact quiet (found hb nofun)
    | data b =>
      simp only [hb] at h
      cases hn : (ch.splitter.read b).next with
      | error e =>
        simp only [hn, Option.some.injEq] at h
        subst h
        exact .stop hp (found hb nofun) (.inr rfl)
      | ok splitter =>
        simp only [hn, Option.some.injEq] at h
        subst h
        exact .read hp ha hb hn

/-! ## Runs -/

/-- What a dropped channel releases. -/
theorem reclaimStep_eq (h : ch.reclaimStep = some ch') :
    ch.dropped = true ∧ ch.isUnused = true ∧ ch' = { ch with
      links := ch.slot.elim ch.links fun l => ch.links.modify l Link.release
      queues := ch.commands.elim ch.queues fun q => ch.queues.modify q CommandQueue.close
      reclaimed := true } := by
  unfold reclaimStep at h
  split at h
  · rename_i hc
    simp only [Bool.and_eq_true] at hc
    cases h
    refine ⟨hc.1.1, hc.2, ?_⟩
    cases hs : ch.slot <;> cases hq : ch.commands <;> simp [hs, hq, refuseQueue, onQueue, onLink]
  · cases h

/-- What an action can do to a channel. -/
inductive Move (ch : Channel) : Action → Channel → Prop where
  | acceptor {ch' : Channel} (m : AcceptorMove ch ch') : Move ch (.task .acceptor) ch'
  | verifier {ch' : Channel} (m : VerifierMove ch ch') : Move ch (.task .verifier) ch'
  | consumer {ch' : Channel} (m : ConsumerMove ch ch') : Move ch (.task .consumer) ch'
  | producer {ch' : Channel} (m : ProducerMove ch ch') : Move ch (.task .producer) ch'
  | relay {ch' : Channel} (m : RelayMove ch ch') : Move ch (.task .relay) ch'
  | reclaimer (hd : ch.dropped = true) (hu : ch.isUnused = true) :
    Move ch (.task .reclaimer) { ch with
      links := ch.slot.elim ch.links fun l => ch.links.modify l Link.release
      queues := ch.commands.elim ch.queues fun q => ch.queues.modify q CommandQueue.close
      reclaimed := true }
  | begin {r : Request} (h : ch.canBegin r.call = true) :
    Move ch (.begin r) { ch with calls := ch.calls ++ [r.call] }
  | call {i : Nat} {c c' : Call} {ch' : Channel} (h : ch.calls[i]? = some c)
      (m : CallMove ch c ch' c') : Move ch (.call i) { ch' with calls := ch'.calls.set i c' }
  | join (h : ch.listener ≠ .nobody) :
    Move ch .join { ch with
      links := ch.links ++ [{}], backlog := ch.backlog ++ [ch.links.length] }
  | client {a : Action} {l : LinkId} {f : Link → Link} (ha : a.client? = some (l, f)) :
    Move ch a (ch.onLink l f)
  | makeQueue : Move ch .makeQueue { ch with queues := ch.queues ++ [{}] }
  | command {q : QueueId} {p : Payload} : Move ch (.command q p) (ch.onQueue q (sendCommand p))
  | dropSender {q : QueueId} : Move ch (.dropSender q) (ch.onQueue q (·.dropSender 0))
  | print {b : Bytes} {output : Stream} (h : ch.output.write b = .ok output) :
    Move ch (.print b) { ch with output }
  | endOutput {e : Ending} : Move ch (.endOutput e) { ch with output := ch.output.finish e }
  | setFaults {faults : Faults} : Move ch (.setFaults faults) { ch with faults }

theorem taskStep_move {a : Actor} (h : ch.taskStep a = some ch') : Move ch (.task a) ch' := by
  cases a with
  | acceptor => exact .acceptor (acceptorStep_move h)
  | verifier => exact .verifier (verifierStep_move h)
  | consumer => exact .consumer (consumerStep_move h)
  | producer => exact .producer (producerStep_move h)
  | relay => exact .relay (relayStep_move h)
  | reclaimer =>
    obtain ⟨hd, hu, rfl⟩ := reclaimStep_eq h
    exact .reclaimer hd hu

/-- An action that is possible is a move, and any other one changes nothing. -/
theorem step_cases (ch : Channel) (a : Action) : ch.step a = ch ∨ Move ch a (ch.step a) := by
  cases a with
  | task a =>
    cases h : ch.taskStep a with
    | none => exact .inl (by simp [step, h])
    | some ch' => exact .inr (by simpa [step, h] using taskStep_move h)
  | begin r =>
    cases h : ch.canBegin r.call with
    | false => exact .inl (by simp [step, begin, h])
    | true => exact .inr (by simpa [step, begin, h] using Move.begin h)
  | call i =>
    cases h : ch.calls[i]? with
    | none => exact .inl (by simp [step, stepCall, h])
    | some c =>
      right
      have hm := Move.call h (ch.callStep_move c)
      simp only [step, stepCall, h]
      exact hm
  | join =>
    by_cases h : ch.listener = .nobody
    · exact .inl (by simp [step, join, h])
    · exact .inr (by simpa [step, join, h] using Move.join h)
  | send l b => exact .inr (.client rfl)
  | finish l => exact .inr (.client rfl)
  | leave l => exact .inr (.client rfl)
  | reset l => exact .inr (.client rfl)
  | fetch l => exact .inr (.client rfl)
  | makeQueue => exact .inr .makeQueue
  | command q p => exact .inr .command
  | dropSender q => exact .inr .dropSender
  | print b =>
    cases h : ch.output.write b with
    | error e => exact .inl (by simp [step, h])
    | ok output => exact .inr (by simpa [step, h] using Move.print h)
  | endOutput e => exact .inr .endOutput
  | setFaults f => exact .inr .setFaults

theorem run_concat (ch : Channel) (as : List Action) (a : Action) :
    ch.run (as ++ [a]) = (ch.run as).step a := by
  simp [run]

/-- What holds at the start and is kept by every move holds after every run. -/
theorem run_keeps {P : Channel → Prop} (keeps : ∀ {ch a ch'}, P ch → Move ch a ch' → P ch')
    (h : P ch) (as : List Action) : P (ch.run as) := by
  induction as generalizing ch with
  | nil => exact h
  | cons a as ih =>
    refine @ih (ch.step a) ?_
    rcases ch.step_cases a with hs | hm
    · rwa [hs]
    · exact keeps h hm

theorem WiringMove.fixed {w w' : Wiring} (m : WiringMove ch w ch' w') :
    ch'.codec = ch.codec ∧ ch'.descriptor = ch.descriptor := by
  cases m <;> exact ⟨rfl, rfl⟩

/-- What a channel was opened with does not change. -/
theorem Move.fixed {a : Action} (m : Move ch a ch') :
    ch'.codec = ch.codec ∧ ch'.descriptor = ch.descriptor := by
  cases m with
  | acceptor m => cases m <;> exact ⟨rfl, rfl⟩
  | verifier m =>
    cases m with
    | wire _ m | wired _ m => exact m.fixed
    | _ => exact ⟨rfl, rfl⟩
  | consumer m => cases m <;> exact ⟨rfl, rfl⟩
  | producer m => cases m <;> exact ⟨rfl, rfl⟩
  | relay m => cases m <;> exact ⟨rfl, rfl⟩
  | call _ m =>
    cases m with
    | wire m | wired m => exact m.fixed
    | _ => exact ⟨rfl, rfl⟩
  | _ => exact ⟨rfl, rfl⟩

theorem WiringMove.relayed_eq {w w' : Wiring} (m : WiringMove ch w ch' w') :
    ch'.handled = ch.handled ∧ ch'.lines = ch.lines := by
  cases m <;> exact ⟨rfl, rfl⟩

theorem WiringMove.output_eq {w w' : Wiring} (m : WiringMove ch w ch' w') :
    ch'.output = ch.output := by
  cases m <;> rfl

/-- Only the event consumer gives events to the handler. -/
theorem Move.handled_eq {a : Action} (m : Move ch a ch') (ha : a ≠ .task .consumer) :
    ch'.handled = ch.handled := by
  cases m with
  | acceptor m => cases m <;> rfl
  | verifier m =>
    cases m with
    | wire _ m | wired _ m => exact m.relayed_eq.1
    | _ => rfl
  | consumer => exact (ha rfl).elim
  | producer m => cases m <;> rfl
  | relay m => cases m <;> rfl
  | call _ m =>
    cases m with
    | wire m | wired m => exact m.relayed_eq.1
    | _ => rfl
  | _ => rfl

/-- Only the console relay gives lines to the console. -/
theorem Move.lines_eq {a : Action} (m : Move ch a ch') (ha : a ≠ .task .relay) :
    ch'.lines = ch.lines := by
  cases m with
  | acceptor m => cases m <;> rfl
  | verifier m =>
    cases m with
    | wire _ m | wired _ m => exact m.relayed_eq.2
    | _ => rfl
  | consumer m => cases m <;> rfl
  | producer m => cases m <;> rfl
  | relay => exact (ha rfl).elim
  | call _ m =>
    cases m with
    | wire m | wired m => exact m.relayed_eq.2
    | _ => rfl
  | _ => rfl

theorem run_fixed (ch : Channel) (as : List Action) :
    (ch.run as).codec = ch.codec ∧ (ch.run as).descriptor = ch.descriptor :=
  run_keeps (P := fun x => x.codec = ch.codec ∧ x.descriptor = ch.descriptor)
    (fun h m => ⟨m.fixed.1.trans h.1, m.fixed.2.trans h.2⟩) ⟨rfl, rfl⟩ as

end WorkerLink.Channel
