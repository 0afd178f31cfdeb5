import WorkerLink.Proofs.Channel.Answering
import WorkerLink.Proofs.Channel.Ending
import WorkerLink.Proofs.Channel.Opening
import WorkerLink.Proofs.Channel.Outcome
import WorkerLink.Proofs.Channel.Requests

/-!
# The state agrees with the facts

The state is moved on from several places, and the gate is counted down from several others. Once
all is settled both are functions of what has happened: what the owner asked for and was granted,
what has become of accepting, and the recorded outcome of verification (`state_eq_factual`).
-/

namespace WorkerLink.Channel

variable {ch ch' : Channel} {a : Action} {w : Wiring}

/-! ## The facts -/

/-- Whether accepting has come to a failure. -/
def acceptFailed (ch : Channel) : Bool :=
  match ch.accepted with
  | some (.failed _) => true
  | _ => false

/-- The worker's connection could not be opened for the streams. -/
def Unconnected (ch : Channel) : Prop :=
  .error "Failed to open worker socket for streams" ∈ ch.log

instance (ch : Channel) : Decidable ch.Unconnected :=
  inferInstanceAs (Decidable (_ ∈ ch.log))

/-- Whether something went wrong that leaves the channel without streams for good. -/
def hasFailed (ch : Channel) : Bool :=
  ch.acceptFailed ||
    match ch.authentication with
    | none => false
    | some .verified => ch.commands.isSome && ch.handler && decide ch.Unconnected
    | some _ => true

/-- The state that the facts amount to. -/
def factualState (ch : Channel) : Lifecycle :=
  if ch.closed then .closed
  else if ch.acceptor = .absent then .listening
  else if ch.hasFailed then .failed
  else if ch.slot = none then .accepting
  else if ch.authentication = none then .authenticating
  else if ch.commands.isSome && ch.handler then .ready
  else .authenticated

/-! ## A connection that could not be opened for the streams -/

/-- Once the worker's connection could not be opened for the streams, they stay unbound behind an
open gate. -/
def StaysUnbound (ch : Channel) : Prop :=
  ch.Unconnected → ch.gate.remaining = 0 ∧ ch.streams = {} ∧
    ∀ w ∈ ch.wirings, w.isRefused = true

theorem Logs.connecting (h : Logs ch a (.error "Failed to open worker socket for streams")) :
    ch.binds? a = some .connect := by
  generalize he : LogRecord.error "Failed to open worker socket for streams" = r at h
  cases h with
  | unconnected hb => exact hb
  | surplus => cases he
  | incomplete => simp [LogRecord.error] at he
  | other hn => exact (hn (he ▸ by decide)).elim

theorem Binds.staysUnbound (b : Binds ch w ch') (h : ch.StaysUnbound) : ch'.StaysUnbound := by
  intro hr
  cases b with
  | @step w' ch₁ v cs m hw hg hne hat hw' hv hcs =>
    have hst := hat.streams
    have refused (hu : ch.Unconnected) : w.isRefused = true :=
      (h hu).2.2 w (hw ▸ List.mem_singleton_self w)
    have hg' : ch₁.gate.remaining = 0 := by rw [m.gate_eq, hg]
    have hnext : ch₁.streams = {} ∧ (w' = .finished ∨ w'.isRefused = true) := by
      cases m with
      | unverified | incomplete | unconnected | fail => exact ⟨hst, .inr rfl⟩
      | giveBack => exact ⟨hst, .inl rfl⟩
      | finished => exact (hne rfl).elim
      | _ => cases refused hr
    refine ⟨hg', hnext.1, fun x hx => ?_⟩
    rw [wirings, hw'] at hx
    split at hx
    · cases hx
    · rename_i hf
      rw [List.mem_singleton.1 hx]
      exact hnext.2.resolve_left hf

theorem StaysUnbound.keeps (h : ch.StaysUnbound) (hi : ch.Inv) (m : Move ch a ch') :
    ch'.StaysUnbound := by
  cases hb : ch.binds? a with
  | some w => exact (m.binds hi.gathers hb).staysUnbound h
  | none =>
    intro hr
    rcases m.logs hr with hr | hl
    · obtain ⟨hg, hs, hw⟩ := h hr
      obtain ⟨extends', leaves⟩ := m.bystander hi.gathers hi.accepts hb
      cases leaves with
      | same hw' hg' => exact ⟨hg'.2 hg, extends'.streams.trans hs, fun w hm => hw w (hw' ▸ hm)⟩
      | opens hg' =>
        rw [hg] at hg'
        cases hg'
    · rw [hl.connecting] at hb
      cases hb

/-! ## Every run -/

/-- What the state of a channel is followed by. -/
structure Tracks (ch : Channel) : Prop where
  closes : ch.Closes
  standing : ch.closed = false → ch.Standing
  answers : ch.Answers
  staysUnbound : ch.StaysUnbound

namespace Tracks

theorem keeps (h : ch.Tracks) (m : Move ch a ch') : ch'.Tracks where
  closes := h.closes.keeps m
  standing hc := (h.standing (m.open_of_open hc)).keeps h.closes.inv m hc
  answers := h.answers.keeps h.closes.inv m
  staysUnbound := h.staysUnbound.keeps h.closes.inv m

theorem run (h : ch.Tracks) (actions : List Action) : (ch.run actions).Tracks :=
  run_keeps keeps h actions

theorem of_create {m : Machine} {faults : Faults} {config : Config} {fresh : SessionId}
    {port : UInt16} {shape : Json.Shape}
    (h : create m faults config fresh port shape = .ok ch) : ch.Tracks := by
  have hc := Closes.of_create h
  obtain ⟨descriptor, codec, rfl⟩ := create_eq h
  exact
    { closes := hc
      standing := fun _ => rfl
      answers := .waiting (.inl rfl)
      staysUnbound := fun hu => nomatch hu }

/-! ## Once all is settled -/

end Tracks

theorem Rests.hasClosed (h : ch.Rests) (hc : ch.closed = true) : ch.HasClosed := by
  refine ⟨hc, fun c hm => ?_⟩
  have hr := h.returned c hm
  cases c with
  | returned => rfl
  | _ => cases hr

namespace Tracks

/-- Each signal that is there has been counted at the gate. -/
theorem remaining (h : ch.Tracks) (hr : ch.Rests) :
    ch.gate.remaining + ch.authentication.isSome.toNat + ch.commands.isSome.toNat +
      ch.handler.toNat = readinessSignals := by
  have hs := h.closes.inv.gathers.signals
  have hv : ch.verifier ≠ .arriving := by
    rcases h.closes.inv.gathers.verifier_of_isSettled hr.settled with hv | ⟨got, hv⟩ | hv <;>
      rw [hv] <;> nofun
  rw [signals, due, hr.countP fun _ => rfl, decide_eq_false hv] at hs
  simpa using hs

theorem closed (h : ch.Tracks) (hr : ch.Rests) (hc : ch.closed = true) : ch.state = .closed :=
  h.closes.ends.state ((hr.hasClosed hc).passed 1)

/-- Before verification is started, the state is that of accepting. -/
theorem waiting (h : ch.Tracks) (hr : ch.Rests) (hc : ch.closed = false)
    (hv : ch.verifier = .absent) : ch.state = ch.factualState := by
  have hst := h.standing hc
  have hclaim := h.closes.inv.accepts.claim
  have hanswer := h.answers
  have hn := h.closes.inv.gathers.authentication_none (by rw [hv]; rfl)
  have hcalls : ch.calls.countP Call.isSpawning = 0 := hr.countP fun _ => rfl
  simp only [Standing, hv, waitingState, hcalls] at hst
  unfold Answers at hanswer
  rw [hv] at hclaim
  have hfree : ch.acceptor.isFree = true := by
    rcases acceptor_of_isSettled hr.settled with ha | ha | ⟨ha, -⟩ <;> rw [ha] <;> rfl
  obtain ⟨hs, hu⟩ := hclaim.unclaimed_of_absent hfree
  rw [hc, hu] at hanswer
  rw [hu, if_pos rfl] at hst
  -- accepting was never begun, has stopped with a failure, or waits for a client
  rcases acceptor_of_isSettled hr.settled with ha | ha | ⟨ha, -⟩ <;> rw [ha] at hst hanswer
  · simp [hst, factualState, hc, ha, Acceptor.state]
  · obtain ⟨reason, ho⟩ := hanswer.of_stopped
    simp [hst, factualState, hc, ha, Acceptor.state, hasFailed, acceptFailed, ho]
  · have ho := hanswer.of_unverified rfl
    simp [hst, factualState, hc, ha, Acceptor.state, hasFailed, acceptFailed, ho, hn, hs]

/-- Verification is started for a connection in the worker slot, once it was accepted. -/
theorem started (h : ch.Tracks) (hv : ch.verifier ≠ .absent) :
    ch.slot ≠ none ∧ ch.acceptor ≠ .absent ∧ ch.acceptFailed = false := by
  obtain ⟨hfree, hsound, hu⟩ := h.closes.inv.accepts.claim.of_started hv
  have hanswer := h.answers
  unfold Answers at hanswer
  rw [hu] at hanswer
  obtain ⟨l, hs, ho⟩ := hanswer.of_verified hfree
  refine ⟨by simp [hs], ?_, by simp [acceptFailed, ho]⟩
  intro ha
  rw [ha] at hsound
  cases hsound

theorem reading (h : ch.Tracks) (hc : ch.closed = false) {got : Bytes}
    (hv : ch.verifier = .reading got) : ch.state = ch.factualState := by
  have hst := h.standing hc
  obtain ⟨hs, ha, hf⟩ := h.started (by rw [hv]; nofun)
  have hn := h.closes.inv.gathers.authentication_none (by rw [hv]; rfl)
  simp only [Standing, hv] at hst
  simp [hst, factualState, hc, ha, hasFailed, hf, hn, hs]

/-- Behind an open gate, the streams of a verified worker are bound unless its connection could not
be opened for them. -/
theorem streams_eq (h : ch.Tracks) (hc : ch.closed = false) (hg : ch.gate.remaining = 0)
    (hw : ch.wirings = []) (ho : ch.authentication = some .verified) :
    ch.streams = if ch.Unconnected then {} else .both := by
  split
  · rename_i hu
    exact (h.staysUnbound hu).2.1
  · rename_i hu
    have hwired := h.closes.inv.gathers.wired
    rw [hw] at hwired
    cases hwired with
    | waiting hpos =>
      rw [hg] at hpos
      cases hpos
    | refused _ _ href =>
      rcases href with ⟨o, ho', hne⟩ | hcl | hl
      · rw [ho] at ho'
        exact (hne (Option.some.inj ho').symm).elim
      · rw [hc] at hcl
        cases hcl
      · exact (hu hl).elim
    | bound _ hs => exact hs

/-- Once the outcome of verification is recorded, the state is that of the outcome and of the two
registrations. -/
theorem finished (h : ch.Tracks) (hr : ch.Rests) (hc : ch.closed = false)
    (hv : ch.verifier = .finished) : ch.state = ch.factualState := by
  obtain ⟨hs, ha, hf⟩ := h.started (by rw [hv]; nofun)
  have hrec : ch.verifier.isRecorded = true := by rw [hv]; rfl
  obtain ⟨o, -, ho⟩ := h.closes.inv.gathers.shows.outcome hrec
  have hst := (standing_recorded hrec).1 (h.standing hc) o ho
  have hw : ch.wirings = [] := hr.wirings (by rw [hv]; rfl)
  have hrem := h.remaining hr
  cases o with
  | closedEarly | mismatch =>
    simp only [Authentication.isVerified, Bool.false_eq_true, if_false] at hst
    simp [hst, factualState, hc, ha, hasFailed, ho]
  | verified =>
    simp only [Authentication.isVerified, if_true, boundState, hw] at hst
    by_cases hg : ch.gate.remaining = 0
    · obtain ⟨-, -, hcm, hh⟩ := all_signals h.closes.inv.gathers.signals hg
      rw [if_pos hg, h.streams_eq hc hg hw ho] at hst
      by_cases hu : ch.Unconnected
      · rw [if_pos hu] at hst
        simp [hst, factualState, hc, ha, hasFailed, ho, hcm, hh, hu]
        decide
      · rw [if_neg hu, if_pos rfl] at hst
        simp [hst, factualState, hc, ha, hasFailed, hf, ho, hcm, hh, hu, hs]
    · rw [if_neg hg] at hst
      -- the outcome has been counted, so what the gate waits for is a registration
      have hmissing : (ch.commands.isSome && ch.handler) = false := by
        cases hcm : ch.commands.isSome <;> cases hh : ch.handler <;>
          simp [ho, hcm, hh, readinessSignals] at hrem ⊢
        exact hg hrem
      simp [hst, factualState, hc, ha, hasFailed, hf, ho, hmissing, hs]

theorem state_eq (h : ch.Tracks) (hr : ch.Rests) : ch.state = ch.factualState := by
  cases hc : ch.closed with
  | true => rw [h.closed hr hc, factualState, hc, if_pos rfl]
  | false =>
    rcases h.closes.inv.gathers.verifier_of_isSettled hr.settled with hv | ⟨got, hv⟩ | hv
    · exact h.waiting hr hc hv
    · exact h.reading hc hv
    · exact h.finished hr hc hv

/-- The facts make a channel ready that has a verified worker and both registrations. -/
theorem factualState_ready_iff (h : ch.Tracks) (hc : ch.closed = false) :
    ch.factualState = .ready ↔ ch.authentication = some .verified ∧
      (ch.commands.isSome && ch.handler) = true ∧ ¬ ch.Unconnected := by
  constructor
  · intro hs
    unfold factualState at hs
    rw [hc, if_neg nofun] at hs
    split at hs
    · cases hs
    split at hs
    · cases hs
    rename_i hf
    split at hs
    · cases hs
    split at hs
    · cases hs
    rename_i hn
    split at hs
    · rename_i hboth
      obtain ⟨o, ho⟩ := Option.ne_none_iff_exists'.1 hn
      cases o <;> simp_all [hasFailed]
    · cases hs
  · rintro ⟨ho, hboth, hu⟩
    have hv : ch.verifier ≠ .absent := by
      intro hv
      have hn := h.closes.inv.gathers.authentication_none (by rw [hv]; rfl)
      rw [hn] at ho
      cases ho
    obtain ⟨hs, ha, hf⟩ := h.started hv
    simp [factualState, hc, ha, hasFailed, hf, ho, hboth, hu, hs]

/-- A channel is ready when both streams run and it was not closed. -/
theorem isReady_iff (h : ch.Tracks) (hr : ch.Rests) :
    ch.isReady = true ↔ ch.streams = .both ∧ ch.closed = false := by
  have hg := h.closes.inv.gathers
  rw [isReady, decide_eq_true_iff]
  cases hc : ch.closed with
  | true =>
    rw [h.closed hr hc]
    exact iff_of_false nofun fun hb => nomatch hb.2
  | false =>
    rw [h.state_eq hr, h.factualState_ready_iff hc]
    constructor
    · rintro ⟨ho, hboth, hu⟩
      obtain ⟨hcm, hh⟩ := Bool.and_eq_true_iff.1 hboth
      have hrem := h.remaining hr
      simp only [ho, hcm, hh, Option.isSome_some, Bool.toNat_true, readinessSignals] at hrem
      have hw : ch.wirings = [] := by
        have hshows := hg.shows
        rw [ho] at hshows
        have hrec := hshows.isRecorded
        refine hr.wirings ?_
        rcases hg.verifier_of_isSettled hr.settled with hv | ⟨got, hv⟩ | hv <;> rw [hv] at hrec ⊢
        · cases hrec
        · cases hrec
        · rfl
      exact ⟨by rw [h.streams_eq hc (by omega) hw ho, if_neg hu], rfl⟩
    · rintro ⟨hb, -⟩
      have hadm := hg.admitted (by rw [hb]; decide)
      refine ⟨hadm.verified, by rw [hadm.commands, hadm.handler]; rfl, fun hu => ?_⟩
      have hs := (h.staysUnbound hu).2.1
      rw [hb] at hs
      cases hs

end Tracks

/-- In every run, once all is settled and the calls of the owner have returned, the channel provides
just what its owner was granted, the gate waits for those of the three signals that are not there,
and the state is the one that the facts amount to. It is `ready` exactly when both streams were
bound and the channel was not closed. -/
theorem state_eq_factual {m : Machine} {faults : Faults} {config : Config} {fresh : SessionId}
    {port : UInt16} {shape : Json.Shape} {start : Channel}
    (hstart : create m faults config fresh port shape = .ok start) (actions : List Action) :
    let ch := start.run actions
    ch.Rests →
      (∀ s, ch.has s = true ↔ start.Grants actions s) ∧
      ch.gate.remaining + ch.authentication.isSome.toNat + ch.commands.isSome.toNat +
        ch.handler.toNat = 3 ∧
      ch.state = ch.factualState ∧
      (ch.isReady = true ↔ ch.streams = .both ∧ ch.closed = false) := by
  intro ch hr
  have h : ch.Tracks := (Tracks.of_create hstart).run actions
  exact ⟨has_iff_grants hstart actions hr.returned, h.remaining hr, h.state_eq hr,
    h.isReady_iff hr⟩

theorem state_eq_factual_of_exampleRun :
    exampleStart.Grants exampleRun .accepting ∧
      (exampleStart.run exampleRun).state = .ready ∧
      (exampleStart.run exampleRun).factualState = .ready ∧
      (exampleStart.run exampleRun).streams = .both := by
  obtain ⟨hg, -, hs, hb⟩ := state_eq_factual create_exampleStart exampleRun (by decide +kernel)
  have hr : (exampleStart.run exampleRun).isReady = true := by decide +kernel
  have hstate : (exampleStart.run exampleRun).state = .ready := of_decide_eq_true hr
  exact ⟨(hg .accepting).1 (by decide +kernel), hstate, hs.symm.trans hstate, (hb.1 hr).1⟩

end WorkerLink.Channel
