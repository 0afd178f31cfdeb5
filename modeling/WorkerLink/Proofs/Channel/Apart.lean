import Mathlib.Tactic.Simps.Basic
import WorkerLink.Proofs.Channel.Queues

/-!
# Calls and command queues that a step does not look at

No task looks at the calls of the owner that are under way, and nobody but the command producer and
who was given a queue looks at the queues. So a step that is taken with other calls and other queues
leads to the same channel, with these calls and queues (`acceptorStep_apart` and so on).
-/

namespace WorkerLink.Channel

variable {c : Call} (calls : List Call) (queues : List (CommandQueue Payload))

/-- A channel with other calls under way and other command queues. -/
@[simps] def apart (X : Channel) (calls : List Call) (queues : List (CommandQueue Payload)) :
    Channel :=
  { X with calls, queues }

theorem stopListening_apart (X : Channel) :
    (X.apart calls queues).stopListening = X.stopListening.apart calls queues := by
  rw [stopListening_eq, stopListening_eq]
  rfl

theorem receive_apart (X : Channel) (r : AcceptResult) :
    (X.apart calls queues).receive r = (X.receive r).apart calls queues := by
  cases r with
  | connection | unusable => rfl
  | error cause =>
    have hstop := stopListening_apart calls queues
      (X.warn "Accept failed after worker connected, no longer listening")
    simp only [receive, apart_unverified]
    split
    · rfl
    · exact congrArg (fun x : Channel => { x with acceptor := .stopped }) hstop

theorem acceptorStep_apart (X : Channel) :
    (X.apart calls queues).acceptorStep = X.acceptorStep.map (·.apart calls queues) := by
  have hstop := X.stopListening_apart calls queues
  have hresult : (X.apart calls queues).acceptResult? = X.acceptResult? := rfl
  unfold acceptorStep
  rw [apart_acceptor]
  cases X.acceptor with
  | absent | stopped | announcing | failing => rfl
  | waiting =>
    simp only [apart_acceptorAborted, apart_backlog, hstop]
    split
    · rfl
    · split <;> rfl
  | polling =>
    simp only [hresult]
    cases X.acceptResult? with
    | none => rfl
    | some r =>
      simp only [receive_apart]
      rfl
  | taken l =>
    simp only [apart_slot]
    split <;> rfl
  | claimed l =>
    simp only [apart_unverified]
    split <;> rfl
  | verifying l =>
    have hopen : (X.apart calls queues).canOpen = X.canOpen := rfl
    simp only [hopen]
    split <;> rfl
  | reporting reason =>
    simp only [hstop]
    rfl

theorem wire_apart (X : Channel) (w : Wiring) :
    (X.apart calls queues).wire w = ((X.wire w).1.apart calls queues, (X.wire w).2) := by
  cases w with
  | judge =>
    simp only [wire, apart_authentication]
    split <;> rfl
  | gather =>
    simp only [wire, apart_slot, apart_commands, apart_handler]
    split <;> rfl
  | connect =>
    have hopen : (X.apart calls queues).canOpen = X.canOpen := rfl
    simp only [wire, hopen]
    split <;> rfl
  | _ => rfl

theorem arrive_apart (X : Channel) :
    (X.apart calls queues).arrive = (X.arrive.1, X.arrive.2.apart calls queues) := by
  simp only [arrive, apart_gate]
  split <;> rfl

theorem readToken_apart (X : Channel) (got : Bytes) :
    (X.apart calls queues).readToken got = (X.readToken got).map (·.apart calls queues) := by
  have hlink (l : LinkId) : (X.apart calls queues).link l = X.link l := rfl
  have hsession : (X.apart calls queues).session = X.session := rfl
  simp only [readToken, apart_slot, hlink, hsession]
  cases X.slot with
  | none => rfl
  | some l =>
    dsimp only
    match (X.link l).inbound.receive (X.session.length - got.length) with
    | (.nothing, s) | (.finished, s) | (.failed e, s) => rfl
    | (.data b, s) =>
      dsimp only
      split <;> rfl

theorem verifierStep_apart (X : Channel) :
    (X.apart calls queues).verifierStep = X.verifierStep.map (·.apart calls queues) := by
  unfold verifierStep
  rw [apart_verifier]
  cases X.verifier with
  | spawned handle => cases handle <;> rfl
  | reading got => exact X.readToken_apart calls queues got
  | publishing o => cases ho : o.isVerified <;> simp only [ho] <;> rfl
  | arriving =>
    simp only [arrive_apart]
    rfl
  | wiring w =>
    simp only [wire_apart]
    rfl
  | _ => rfl

theorem stopConsumer_apart (X : Channel) :
    (X.apart calls queues).stopConsumer = X.stopConsumer.apart calls queues := by
  simp only [stopConsumer, apart_producer]
  split <;> rfl

theorem stopProducer_apart (X : Channel) :
    (X.apart calls queues).stopProducer = X.stopProducer.apart calls queues := by
  simp only [stopProducer, apart_consumer]
  split <;> rfl

theorem consumerStep_apart (X : Channel) :
    (X.apart calls queues).consumerStep = X.consumerStep.map (·.apart calls queues) := by
  have hlink (l : LinkId) : (X.apart calls queues).link l = X.link l := rfl
  simp only [consumerStep, apart_consumer, apart_disabled, apart_slot, apart_reader, apart_codec,
    hlink, stopConsumer_apart]
  split
  · rfl
  · split
    · rfl
    · cases X.slot with
      | none => rfl
      | some l =>
        dsimp only
        match X.reader.step X.codec (X.link l).inbound with
        | (found, r, s) =>
          have hstop (log : List LogRecord) := stopConsumer_apart calls queues
            { X.onLink l fun x => { x with inbound := s } with reader := r, log }
          cases found with
          | pending | arrived | item => rfl
          | failed e => exact congrArg some (hstop _)
          | ended => exact congrArg some (hstop _)

theorem relayStep_apart (X : Channel) :
    (X.apart calls queues).relayStep = X.relayStep.map (·.apart calls queues) := by
  simp only [relayStep, apart_relay, apart_output, apart_splitter]
  split
  · rfl
  · split
    · rfl
    · match X.output.receiveAll with
      | (.nothing, output) | (.failed e, output) => rfl
      | (.data b, output) =>
        dsimp only
        cases (X.splitter.read b).next <;> rfl
      | (.finished, output) =>
        dsimp only
        cases X.splitter.finish with
        | error e => rfl
        | ok line => cases line <;> rfl

/-- Neither does a call, unless it was given a queue. -/
theorem callStep_apart (X : Channel) (hc : c.queue? = none) :
    (X.apart calls queues).callStep c =
      ((X.callStep c).1.apart calls queues, (X.callStep c).2) := by
  cases c with
  | bindCommands | setCommands => cases hc
  | arrive => simp only [callStep, arrive_apart]
  | wire w => simp only [callStep, wire_apart]
  | connectListener =>
    simp only [callStep, apart_listener]
    split <;> rfl
  | setEvents output =>
    simp only [callStep, apart_handler]
    split <;> rfl
  | close dropping point =>
    have finish (X : Channel) (releases : List (Except IoError Unit)) :
        (X.apart calls queues).finishClosing dropping releases =
          ((X.finishClosing dropping releases).1.apart calls queues,
            (X.finishClosing dropping releases).2) := by
      unfold finishClosing
      cases CloseError.aggregate releases <;> cases dropping <;> rfl
    cases point with
    | start =>
      simp only [callStep, apart_closed, finish]
      split <;> rfl
    | shutWorker =>
      have hshut : (X.apart calls queues).shutWorker =
          (X.shutWorker.1, X.shutWorker.2.apart calls queues) := by
        simp only [shutWorker, apart_slot, apart_faults]
        cases X.slot with
        | none => rfl
        | some l => cases X.faults.shutdown <;> rfl
      simp only [callStep, hshut]
    | releaseListener worker =>
      have hrelease : (X.apart calls queues).releaseListener =
          (X.releaseListener.1, X.releaseListener.2.apart calls queues) := by
        have hstop := stopListening_apart calls queues
          { X with acceptorAborted := X.acceptorAborted || X.acceptor != .absent }
        simp only [releaseListener, apart_listener]
        split
        · exact congrArg (Prod.mk _) hstop
        · rfl
      simp only [callStep, hrelease]
    | giveBack releases =>
      exact finish { X with countdown := X.countdown.discard } releases
    | announce | abortStreams | abortConsole => rfl
  | _ => rfl

end WorkerLink.Channel
