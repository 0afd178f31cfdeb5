import WorkerLink.Proofs.Channel.Answering
import WorkerLink.Proofs.Channel.Ending
import WorkerLink.Proofs.Channel.Settling

/-!
# Closing a channel whose worker may be on its way

Closing looks once for a connection in the worker slot and shuts it down. One that is shut down
stays so, and whoever waits for its verification is answered without another byte from it. Accepting
is told to stop only afterwards, so a connection can still be put into the slot behind the back of
closing; neither that one nor one whose shutdown the system refused is shut down
(`outlives_closing`).
-/

namespace WorkerLink

/-- A connection that the channel has shut down: it takes nothing more in, and the peer finds the
end behind what was written. -/
structure Link.IsShut (l : Link) : Prop where
  abandoned : l.inbound.abandoned = true
  ended : l.outbound.ended = true

instance (l : Link) : Decidable l.IsShut :=
  decidable_of_iff (l.inbound.abandoned = true ∧ l.outbound.ended = true)
    ⟨fun ⟨ha, he⟩ => ⟨ha, he⟩, fun h => ⟨h.abandoned, h.ended⟩⟩

/-- A reader of a stream that was given up never has to wait. -/
theorem Stream.receive_ne_nothing {s : Stream} {k : Nat} (h : s.abandoned = true) (hk : 0 < k) :
    (s.receive k).1 ≠ .nothing := by
  have hr := s.receives hk
  generalize s.receive k = found at hr ⊢
  obtain ⟨found, s'⟩ := found
  cases hr with
  | nothing _ _ _ ha =>
    rw [h] at ha
    cases ha
  | _ => nofun

/-- How many steps verification has left before its outcome is published, for a token of length
`n`. -/
def Verifier.steps (n : Nat) : Verifier → Nat
  | .spawned _ => n + 3
  | .reading got => n - got.length + 2
  | .judged _ => 2
  | .publishing _ => 1
  | _ => 0

theorem Verifier.steps_le (n : Nat) (v : Verifier) : v.steps n ≤ n + 3 := by
  cases v with
  | reading got =>
    simp only [steps]
    omega
  | _ => simp [steps]

def Action.isVerifying : Action → Bool
  | .task .verifier => true
  | _ => false

namespace Channel

variable {ch ch' : Channel} {a : Action} {k l : LinkId}

/-! ## Connections that are shut down -/

theorem LinkMove.isShut (m : LinkMove ch a ch' k) (h : (ch.link k).IsShut) :
    (ch'.link k).IsShut := by
  cases m with
  | same he => rwa [he]
  | client ha he =>
    rw [he]
    exact ⟨(Action.inbound_abandoned ha _).trans h.abandoned,
      (Action.byClient ha _).ended.trans h.ended⟩
  | turnedAway _ he | reclaimed _ _ he =>
    rw [he]
    exact ⟨rfl, Stream.ended_finish _⟩
  | shutDown _ _ _ he =>
    rw [he]
    exact ⟨rfl, rfl⟩
  | read _ _ hr he =>
    rw [he]
    refine ⟨?_, h.ended⟩
    rcases hr with rfl | ⟨limit, rfl⟩
    · exact h.abandoned
    · obtain ⟨b, rest, broken, -, -, hs⟩ := (ch.link k).inbound.receive_frame limit
      rw [hs]
      exact h.abandoned
  | written _ _ hw =>
    obtain ⟨hw, -⟩ := Stream.write_inv hw
    rw [Stream.not_isWritable_of_ended (.inl h.ended)] at hw
    cases hw

/-! ## Where closing looks for the worker -/

/-- Whether an action is the step of closing that looks for a connection to shut down. -/
def isShutting (ch : Channel) : Action → Bool
  | .call i =>
    match ch.calls[i]? with
    | some (.close _ .shutWorker) => true
    | _ => false
  | _ => false

/-- The channel as closing finds it when a run comes to shutting the worker's connection down. -/
def atShutdown? (ch : Channel) : List Action → Option Channel
  | [] => none
  | a :: as => if ch.isShutting a then some ch else (ch.step a).atShutdown? as

theorem atShutdown_split {x : Channel} {as : List Action} (h : ch.atShutdown? as = some x) :
    ∃ before a after, as = before ++ a :: after ∧ ch.run before = x ∧ x.isShutting a = true := by
  induction as generalizing ch with
  | nil => cases h
  | cons a as ih =>
    rw [atShutdown?] at h
    split at h
    · rename_i ha
      cases h
      exact ⟨[], a, as, rfl, rfl, ha⟩
    · obtain ⟨before, b, after, rfl, hx, hb⟩ := ih h
      exact ⟨a :: before, b, after, rfl, hx, hb⟩

theorem Passes.isShutting (p : ch.Passes 2 a ch') : ch.isShutting a = true := by
  cases p with
  | @step i dropping point c' ch' hi hn m =>
    cases point with
    | shutWorker => simp [Channel.isShutting, hi]
    | _ => cases hn

/-- Closing that is past the shutdown of the worker's connection has come by it. -/
theorem exists_atShutdown (h : ¬ ch.HasPassed 2) (as : List Action) (hp : (ch.run as).HasPassed 2) :
    ∃ x, ch.atShutdown? as = some x := by
  induction as generalizing ch with
  | nil => exact (h hp).elim
  | cons a as ih =>
    rw [atShutdown?]
    split
    · exact ⟨_, rfl⟩
    · rename_i ha
      -- a step that is not the shutdown does not take closing past it
      refine ih (fun hn => ?_) hp
      rcases ch.step_cases a with hs | m
      · exact h (hs ▸ hn)
      · rcases m.passed_cases (by decide) hn with hn | p
        · exact h hn
        · exact ha p.isShutting

/-- Unless the system refuses, closing shuts the connection in the worker slot down. -/
theorem step_isShut (hacc : ch.Accepts) (ha : ch.isShutting a = true) (hs : ch.slot = some l)
    (hf : ch.faults.shutdown = none) :
    (ch.step a).slot = some l ∧ ((ch.step a).link l).IsShut := by
  unfold isShutting at ha
  split at ha
  · rename_i i
    split at ha
    · rename_i dropping hi
      have hstep : ch.step (.call i) = { ch.onLink l Link.shutDown with
          calls := ch.calls.set i (.close dropping (.releaseListener (.ok ()))) } := by
        simp only [step, stepCall, hi, callStep, shutWorker, hs, hf]
        rfl
      have hlink : (ch.step (.call i)).link l = (ch.onLink l Link.shutDown).link l := by
        rw [hstep]
        rfl
      refine ⟨by rw [hstep]; exact hs, ?_⟩
      rw [hlink, link_onLink_self (hacc.slot_lt hs)]
      exact ⟨rfl, rfl⟩
    · cases ha
  · cases ha

/-- The worker is in the slot, and its connection is shut down. -/
structure Released (ch : Channel) (l : LinkId) : Prop where
  inv : ch.Inv
  answers : ch.Answers
  slot : ch.slot = some l
  shut : (ch.link l).IsShut

namespace Released

theorem keeps (h : ch.Released l) (m : Move ch a ch') : ch'.Released l where
  inv := h.inv.keeps m
  answers := h.answers.keeps h.inv m
  slot := m.slot_eq h.slot
  shut := (m.link h.inv.accepts l).isShut h.shut

theorem run (h : ch.Released l) (as : List Action) : (ch.run as).Released l :=
  run_keeps (P := (Released · l)) keeps h as

end Released

/-! ## The outcome of verification -/

/-- Unless accepting is about to start verification, nobody but verification itself changes how far
it has come. -/
theorem Move.verifier_eq (m : Move ch a ch') (h : ∀ l, ch.acceptor ≠ .verifying l)
    (ha : a.isVerifying = false) : ch'.verifier = ch.verifier := by
  cases m with
  | acceptor m =>
    cases m with
    | verify hx | verifyBlind hx => exact (h _ hx).elim
    | _ => rfl
  | verifier => cases ha
  | consumer m => cases m <;> rfl
  | producer m => cases m <;> rfl
  | relay m => cases m <;> rfl
  | call _ m => exact m.outcome_eq.1
  | _ => rfl

/-- While verification reads, the token is not complete. -/
theorem Inv.length_reading (h : ch.Inv) (hs : ch.slot = some l) {got : Bytes}
    (hv : ch.verifier = .reading got) : got.length < ch.session.length := by
  obtain ⟨-, -, -, hlt⟩ := h.listens.reading h.gathers h.accepts hv hs
  exact hlt

theorem VerifierMove.steps (m : VerifierMove ch ch') (hi : ch.Inv) :
    ch'.verifier.steps ch.session.length ≤ ch.verifier.steps ch.session.length - 1 := by
  cases m with
  | @read got l b s hv hs hr hn =>
    have hlt := hi.length_reading hs hv
    have hrec := (ch.link l).inbound.receives (Nat.sub_pos_of_lt hlt)
    rw [hr] at hrec
    cases hrec with
    | data hb =>
      have hpos := List.length_pos_iff.2 hb
      simp only [Verifier.steps, hv, List.length_append] at hn ⊢
      omega
  | complete hv hs | ended hv hs | broke hv hs =>
    have hlt := hi.length_reading hs hv
    simp only [Verifier.steps, hv]
    omega
  | begin hv | blind hv | judge hv | publish hv | record hv | opens hv | arrives hv | surplus hv =>
    simp [Verifier.steps, hv]
  | wire hv m | wired hv m => simp [Verifier.steps, hv]

/-- Verification that was started has shown its outcome once it has no step left before that. -/
theorem Inv.verified_of_steps (h : ch.Inv) (hv : ch.verifier ≠ .absent)
    (hz : ch.verifier.steps ch.session.length = 0) : ch.verified.isSome = true := by
  have hshows := h.gathers.shows
  generalize ch.verifier = v at hv hz hshows
  generalize ch.authentication = recorded at hshows
  generalize ch.verified = shown at hshows ⊢
  cases hshows with
  | pending hp =>
    cases v with
    | absent => exact (hv rfl).elim
    | spawned | reading | judged | publishing => simp [Verifier.steps] at hz
    | _ => cases hp
  | recording | recorded => rfl

namespace Released

/-- Verification never has to wait for a connection that is shut down. -/
theorem verifierStep (h : ch.Released l) (hp : 0 < ch.verifier.steps ch.session.length) :
    ∃ ch', ch.verifierStep = some ch' := by
  cases hv : ch.verifier with
  | reading got =>
    have hlt := h.inv.length_reading h.slot hv
    have hne := Stream.receive_ne_nothing h.shut.abandoned (Nat.sub_pos_of_lt hlt)
    simp only [Channel.verifierStep, hv, readToken, h.slot]
    generalize (ch.link l).inbound.receive (ch.session.length - got.length) = found at hne
    obtain ⟨found, s⟩ := found
    cases found with
    | nothing => exact (hne rfl).elim
    | data b =>
      dsimp only
      split <;> exact ⟨_, rfl⟩
    | finished | failed => exact ⟨_, rfl⟩
  | spawned handle =>
    cases handle <;> simp only [Channel.verifierStep, hv] <;> exact ⟨_, rfl⟩
  | judged | publishing =>
    simp only [Channel.verifierStep, hv]
    exact ⟨_, rfl⟩
  | _ => simp [Verifier.steps, hv] at hp

theorem step_steps (h : ch.Released l) (hs : ch.acceptor = .stopped) (a : Action) :
    (ch.step a).verifier.steps ch.session.length ≤
      ch.verifier.steps ch.session.length - a.isVerifying.toNat := by
  cases ha : a.isVerifying with
  | false =>
    rcases ch.step_cases a with he | m
    · rw [he]
      exact Nat.le_refl _
    · rw [m.verifier_eq (by simp [hs]) ha]
      exact Nat.le_refl _
  | true =>
    obtain rfl : a = .task .verifier := by
      cases a with
      | task x => cases x <;> first | rfl | cases ha
      | _ => cases ha
    cases hv : ch.verifierStep with
    | some ch' =>
      have he : ch.step (.task .verifier) = ch' := by simp [step, taskStep, hv]
      rw [he]
      exact (verifierStep_move hv).steps h.inv
    | none =>
      -- a connection that is shut down never makes verification wait, so it has come to its end
      have hz : ch.verifier.steps ch.session.length = 0 := by
        by_contra hne
        obtain ⟨ch', he⟩ := h.verifierStep (Nat.pos_of_ne_zero hne)
        rw [hv] at he
        cases he
      have he : ch.step (.task .verifier) = ch := by simp [step, taskStep, hv]
      rw [he, hz]
      exact Nat.zero_le _

/-- Whatever happens once accepting has stopped, each step of verification brings it closer to its
outcome, and nothing else sets it back. -/
theorem steps_run (h : ch.Released l) (hs : ch.acceptor = .stopped) (as : List Action) :
    (ch.run as).verifier.steps ch.session.length ≤
      ch.verifier.steps ch.session.length - as.countP Action.isVerifying := by
  induction as generalizing ch with
  | nil => exact Nat.le_refl _
  | cons a as ih =>
    have hstep := h.step_steps hs a
    have h' : (ch.step a).Released l := h.run [a]
    have hs' : (ch.step a).acceptor = .stopped := by
      rcases ch.step_cases a with he | m
      · rwa [he]
      · exact m.stays_stopped h.inv.accepts hs
    have hsession : (ch.step a).session = ch.session :=
      congrArg Descriptor.session (ch.run_fixed [a]).2
    have hrest := ih h' hs'
    have hrun : ch.run (a :: as) = (ch.step a).run as := rfl
    have hcount : (a :: as).countP Action.isVerifying =
        as.countP Action.isVerifying + a.isVerifying.toNat := by
      rw [List.countP_cons]
      cases a.isVerifying <;> rfl
    rw [hsession] at hrest
    rw [hrun, hcount]
    omega

theorem started (h : ch.Released l) (hs : ch.acceptor = .stopped) : ch.verifier ≠ .absent := by
  intro hv
  have hclaim := h.inv.accepts.claim
  rw [hs, hv, h.slot] at hclaim
  cases (hclaim.unclaimed_of_absent rfl).1

/-- Once accepting has stopped, whoever waits for the worker is told that it was accepted. -/
theorem accepted? (h : ch.Released l) (hs : ch.acceptor = .stopped) :
    ch.accepted? = some (.ok l) := by
  have hanswer := h.answers
  unfold Answers at hanswer
  rw [(h.inv.accepts.claim.of_started (h.started hs)).2.2] at hanswer
  obtain ⟨k, hk, ho⟩ := hanswer.of_verified (by rw [hs]; rfl)
  obtain rfl : l = k := Option.some.inj (h.slot.symm.trans hk)
  simp [Channel.accepted?, ho]

/-- Whoever waits for the outcome of verification gets it, once verification has no step left before
it is published. -/
theorem complete (h : ch.Released l) (hs : ch.acceptor = .stopped)
    (hz : ch.verifier.steps ch.session.length = 0) :
    ∃ o, ch.verified = some o ∧ ch.complete? = some (.ok o) := by
  obtain ⟨o, hv⟩ := Option.isSome_iff_exists.1 (h.inv.verified_of_steps (h.started hs) hz)
  exact ⟨o, hv, by simp [complete?, h.accepted? hs, hv]⟩

/-- Whatever else happens, whoever waits gets the outcome as soon as verification has taken as many
steps as the token has bytes, and three more. -/
theorem complete_run (h : ch.Released l) (hs : ch.acceptor = .stopped) {as : List Action}
    (hn : ch.session.length + 3 ≤ as.countP Action.isVerifying) :
    ∃ o, (ch.run as).complete? = some (.ok o) := by
  have hle := Verifier.steps_le ch.session.length ch.verifier
  have hsteps := h.steps_run hs as
  have hsession : (ch.run as).session = ch.session :=
    congrArg Descriptor.session (ch.run_fixed as).2
  have hstopped : (ch.run as).acceptor = .stopped :=
    (run_keeps (P := fun ch => ch.Released l ∧ ch.acceptor = .stopped)
      (fun h m => ⟨h.1.keeps m, m.stays_stopped h.1.inv.accepts h.2⟩) ⟨h, hs⟩ as).2
  obtain ⟨o, -, ho⟩ := (h.run as).complete hstopped (by rw [hsession]; omega)
  exact ⟨o, ho⟩

end Released

/-! ## Closing -/

/-- Whatever comes after the shutdown, the connection that closing found in the worker slot stays
there and shut down, unless the system refused. -/
theorem released_of_atShutdown {x : Channel} {as : List Action} (hi : ch.Inv) (ha : ch.Answers)
    (hx : ch.atShutdown? as = some x) (hl : x.slot = some l) (hf : x.faults.shutdown = none) :
    (ch.run as).Released l := by
  obtain ⟨before, a, after, rfl, rfl, hat⟩ := atShutdown_split hx
  have holds : ((ch.run before).step a).Inv ∧ ((ch.run before).step a).Answers := by
    rw [← run_concat]
    exact ⟨hi.run _, ha.run hi _⟩
  obtain ⟨hslot, hshut⟩ := step_isShut (hi.run before).accepts hat hl hf
  have hrun : ch.run (before ++ a :: after) = ((ch.run before).step a).run after := by simp [run]
  rw [hrun]
  exact Released.run ⟨holds.1, holds.2, hslot, hshut⟩ after

/-- In every run, once closing has come to its end, the connection that it found in the worker slot
is shut down, unless the system refused to. Once accepting has stopped too, whoever waits for the
outcome of verification gets it when verification has taken its steps, whatever else happens and
without another byte from the worker; and with no connection in the slot the wait fails at once. -/
theorem worker_shut_by_closing {m : Machine} {faults : Faults} {config : Config}
    {fresh : SessionId} {port : UInt16} {shape : Json.Shape} {start : Channel}
    (hstart : create m faults config fresh port shape = .ok start) (actions : List Action) :
    let ch := start.run actions
    ch.HasClosed →
      (∃ x, start.atShutdown? actions = some x ∧
        ∀ l, x.slot = some l → x.faults.shutdown = none →
          ch.slot = some l ∧ (ch.link l).IsShut ∧
          (ch.acceptor = .stopped → ∀ more,
            ch.session.length + 3 ≤ more.countP Action.isVerifying →
              ∃ o, (ch.run more).complete? = some (.ok o))) ∧
      (ch.acceptor = .stopped → ch.slot = none →
        ∃ reason, ch.complete? = some (.error (.accept reason))) := by
  intro ch hclosed
  have hi := Inv.of_create hstart
  have ha : start.Answers := by
    obtain ⟨descriptor, codec, rfl⟩ := create_eq hstart
    exact .waiting (.inl rfl)
  have hopen : ¬ start.HasPassed 2 := by
    obtain ⟨descriptor, codec, rfl⟩ := create_eq hstart
    exact fun hp => nomatch hp.1
  constructor
  · obtain ⟨x, hx⟩ := exists_atShutdown hopen actions (hclosed.passed 2)
    refine ⟨x, hx, fun l hl hf => ?_⟩
    have hend := released_of_atShutdown hi ha hx hl hf
    exact ⟨hend.slot, hend.shut, fun hs more hn => hend.complete_run hs hn⟩
  · intro hs hn
    obtain ⟨reason, -, hc⟩ := (ha.run hi actions).refused hs hn
    exact ⟨reason, hc⟩

/-- A client has connected, and the owner asks to accept it. -/
def exampleArrival : List Action :=
  [.begin .connect, .call 0, .call 0, .call 0, .call 0, .join]

/-- The steps of closing, begun by the second call of the owner. -/
def exampleClosing : List Action := .begin .close :: List.replicate 7 (.call 1)

/-- The channel is closed while its worker is being verified, with what the system answers when the
connection is shut down. -/
def closedWhileVerifying (shutdown : Option Errno) : List Action :=
  exampleArrival ++ List.replicate 7 (.task .acceptor) ++
    [.task .verifier, .setFaults { shutdown }] ++ exampleClosing ++ [.task .acceptor]

/-- The channel is closed after a connection was accepted and before it claims the worker slot. -/
def closedWhileClaiming : List Action :=
  exampleArrival ++ List.replicate 2 (.task .acceptor) ++ exampleClosing ++
    List.replicate 6 (.task .acceptor) ++ [.task .verifier]

theorem worker_shut_by_closing_of_closedWhileVerifying :
    ((exampleStart.run (closedWhileVerifying none)).link 0).IsShut ∧
      ∃ o, ((exampleStart.run (closedWhileVerifying none)).run
        (List.replicate 4 (.task .verifier))).complete? = some (.ok o) := by
  obtain ⟨⟨x, hx, hshut⟩, -⟩ :=
    worker_shut_by_closing create_exampleStart (closedWhileVerifying none) (by decide +kernel)
  have hfound : (exampleStart.atShutdown? (closedWhileVerifying none)).map
      (fun x => (x.slot, x.faults.shutdown)) = some (some 0, none) := by decide +kernel
  rw [hx, Option.map_some, Option.some.injEq, Prod.mk.injEq] at hfound
  obtain ⟨-, hs, hc⟩ := hshut 0 hfound.1 hfound.2
  exact ⟨hs, hc (by decide +kernel) _ (by decide +kernel)⟩

/-- A channel that was closed, and accepts nobody any more, with a connection in the worker slot
that is not shut down, and with a wait for its verification that only the worker can end. -/
def IsOutlivedBy (ch : Channel) (l : LinkId) : Prop :=
  ch.HasClosed ∧ ch.acceptor = .stopped ∧ ch.slot = some l ∧ ¬ (ch.link l).IsShut ∧
    ch.isSettled = true ∧ ch.complete?.isNone = true

instance (ch : Channel) (l : LinkId) : Decidable (ch.IsOutlivedBy l) :=
  inferInstanceAs (Decidable (_ ∧ _ ∧ _ ∧ ¬ _ ∧ _ ∧ _))

/-- A connection outlives closing if it was still to be put into the worker slot when closing looked
there, or if the system refused to shut it down. -/
theorem outlives_closing :
    (exampleStart.run closedWhileClaiming).IsOutlivedBy 0 ∧
      (exampleStart.run (closedWhileVerifying (some Errno.brokenPipe))).IsOutlivedBy 0 := by
  decide +kernel

end Channel

end WorkerLink
