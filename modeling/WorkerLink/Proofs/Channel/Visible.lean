import WorkerLink.Proofs.Channel.Facts
import WorkerLink.Proofs.Channel.Forward

/-!
# Nothing is shown ahead of the state

Accepting and verification write the state before they publish their outcomes, and closing writes it
before it tells accepting to stop (`Backed`). The state only goes forward, so whoever waits for the
worker never sees an outcome ahead of the state, and what was seen once stays
(`waits_stable_and_backed`).
-/

namespace WorkerLink

/-- A state is another one, or comes behind it. -/
def Lifecycle.Reaches (s t : Lifecycle) : Prop := t.number ≤ s.number

instance (s t : Lifecycle) : Decidable (s.Reaches t) :=
  inferInstanceAs (Decidable (t.number ≤ s.number))

namespace Lifecycle.Reaches

variable {s t u : Lifecycle}

theorem created : s.Reaches .created := Nat.zero_le _

theorem trans (h : s.Reaches t) (h' : t.Reaches u) : s.Reaches u := Nat.le_trans h' h

theorem advance (s t : Lifecycle) : (s.advance t).Reaches t := by
  cases s <;> cases t <;> decide

theorem ended (h : s.Reaches .failed) : s = .failed ∨ s = .closed := by
  unfold Reaches at h
  cases s <;> simp_all [number]

theorem authenticated (h : s.Reaches .authenticated) :
    s = .authenticated ∨ s = .ready ∨ s = .failed ∨ s = .closed := by
  unfold Reaches at h
  cases s <;> simp_all [number]

end Lifecycle.Reaches

/-- The state that is written before a point of accepting is reached. -/
def Acceptor.backing : Acceptor → Lifecycle
  | .announcing _ | .verifying _ => .accepted
  | .reporting _ => .failed
  | _ => .created

/-- The state that is written before a point of verification is reached. -/
def Verifier.backing : Verifier → Lifecycle
  | .publishing o => o.state
  | _ => .created

/-- The state that is written before an outcome of accepting is published. -/
def AcceptOutcome.backing : AcceptOutcome → Lifecycle
  | .accepted _ => .accepted
  | .failed _ => .failed

/-- A state stands behind what accepting and verification have published, and behind what they are
about to publish at the points that they have reached. -/
structure Backing (s : Lifecycle) (a : Acceptor) (peer : Option AcceptOutcome) (abort : Bool)
    (v : Verifier) (shown : Option Authentication) : Prop where
  acceptor : s.Reaches a.backing
  accepted : ∀ o, peer = some o → s.Reaches o.backing
  /-- Accepting is told to stop only by closing. -/
  told : abort = true → s.Reaches .closed
  /-- Accepting that has stopped with nothing to publish was told to. -/
  stopped : a = .stopped → peer = none → s.Reaches .closed
  verifier : s.Reaches v.backing
  verified : ∀ o, shown = some o → s.Reaches o.state

theorem Backing.mono {s t : Lifecycle} {a : Acceptor} {peer : Option AcceptOutcome} {abort : Bool}
    {v : Verifier} {shown : Option Authentication} (h : Backing s a peer abort v shown)
    (ht : t.Reaches s) : Backing t a peer abort v shown where
  acceptor := ht.trans h.acceptor
  accepted o ho := ht.trans (h.accepted o ho)
  told hx := ht.trans (h.told hx)
  stopped ha hn := ht.trans (h.stopped ha hn)
  verifier := ht.trans h.verifier
  verified o ho := ht.trans (h.verified o ho)

namespace Channel

variable {ch ch' : Channel} {a : Action} {w w' : Wiring} {o : Authentication}

/-- The state stands behind all that those who wait can see. -/
def Backed (ch : Channel) : Prop :=
  Backing ch.state ch.acceptor ch.accepted ch.acceptorAborted ch.verifier ch.verified

/-! ## Every move -/

/-- A move that neither accepts nor verifies leaves what is published as it is. -/
theorem Backed.same (h : ch.Backed) (f : Forward ch ch') (ha : ch'.acceptor = ch.acceptor)
    (ho : ch'.accepted = ch.accepted) (hx : ch'.acceptorAborted = ch.acceptorAborted)
    (hv : ch'.verifier = ch.verifier) (hs : ch'.verified = ch.verified) : ch'.Backed := by
  unfold Backed
  rw [ha, ho, hx, hv, hs]
  exact Backing.mono h f.precedes.1

theorem AcceptorMove.backed (m : AcceptorMove ch ch') (h : ch.Backed) (ht : ch.Tracks)
    (f : Forward ch ch') : ch'.Backed := by
  have hnow := Backing.mono h f.precedes.1
  unfold Backed
  cases m with
  | wake | wait | take | refuse | turnAway | claim | skip =>
    exact { hnow with acceptor := .created, stopped := nofun }
  | accept | fail => exact { hnow with acceptor := .advance .., stopped := nofun }
  | verify | verifyBlind =>
    exact { hnow with acceptor := .created, stopped := nofun, verifier := .created }
  | abort _ hx => exact { hnow with acceptor := .created, stopped := fun _ _ => hnow.told hx }
  | giveUp ha _ hu =>
    -- somebody was accepted before, and that was published
    have hanswer := ht.answers
    unfold Answers at hanswer
    rw [hu] at hanswer
    obtain ⟨l, -, ho⟩ := hanswer.of_verified (by rw [ha]; rfl)
    exact { hnow with acceptor := .created, stopped := fun _ hn => nomatch ho.symm.trans hn }
  | announce ha =>
    have hback := hnow.acceptor
    rw [ha] at hback
    refine { hnow with acceptor := hback, accepted := ?_, stopped := nofun }
    rintro - ⟨⟩
    exact hback
  | report ha =>
    have hback := hnow.acceptor
    rw [ha] at hback
    refine { hnow with acceptor := .created, accepted := ?_, stopped := nofun }
    rintro - ⟨⟩
    exact hback

/-- Binding the streams publishes nothing. -/
theorem WiringMove.view_eq (m : WiringMove ch w ch' w') :
    ch'.acceptor = ch.acceptor ∧ ch'.accepted = ch.accepted ∧
      ch'.acceptorAborted = ch.acceptorAborted ∧ ch'.verifier = ch.verifier ∧
      ch'.verified = ch.verified := by
  cases m <;> exact ⟨rfl, rfl, rfl, rfl, rfl⟩

theorem VerifierMove.backed (m : VerifierMove ch ch') (h : ch.Backed) (f : Forward ch ch') :
    ch'.Backed := by
  have hnow := Backing.mono h f.precedes.1
  unfold Backed
  cases m with
  | judge => exact { hnow with verifier := .advance .. }
  | publish hv =>
    have hback := hnow.verifier
    rw [hv] at hback
    refine { hnow with verifier := .created, verified := fun o' ho => ?_ }
    obtain rfl := Option.some.inj ho
    exact hback
  | wire _ m | wired _ m =>
    obtain ⟨ha, ho, hx, -, hs⟩ := m.view_eq
    simp only [ha, ho, hx, hs]
    exact { hnow with verifier := .created }
  | _ => exact { hnow with verifier := .created }

/-- Closing that has announced itself has written the state. -/
theorem Closes.state_of_closing (h : ch.Closes) {i : Nat} {c : Call} {point : Closing}
    (hi : ch.calls[i]? = some c) (hp : c.closing? = some point) (hn : 1 < point.number) :
    ch.state = .closed := by
  obtain ⟨dropping, rfl⟩ : ∃ dropping, c = .close dropping point := by
    cases c with
    | close dropping p => cases p <;> cases hp <;> exact ⟨_, rfl⟩
    | _ => cases hp
  refine h.ends.state ⟨?_, fun d hd p hd' => ?_⟩
  · cases hc : ch.closed with
    | true => rfl
    | false =>
      have hx := (h.inv.open_of hc).calls _ (List.mem_of_getElem? hi)
      cases point with
      | start => cases hp
      | _ => cases hx
  · obtain ⟨j, hj⟩ := List.mem_iff_getElem?.1 hd
    have hd'' : d.isReturned = false := by
      cases d with
      | returned => cases hd'
      | _ => rfl
    obtain rfl := h.excludes i j _ d hi hj rfl hd''
    obtain rfl := Option.some.inj (hi.symm.trans hj)
    obtain rfl := Option.some.inj (hp.symm.trans hd')
    exact hn

theorem CallMove.backed {i : Nat} {c c' : Call} {cs : List Call} (m : CallMove ch c ch' c')
    (hi : ch.calls[i]? = some c) (h : ch.Backed) (hc : ch.Closes)
    (f : Forward ch { ch' with calls := cs }) : Backed { ch' with calls := cs } := by
  have hnow := Backing.mono h f.precedes.1
  cases m with
  | spawnAcceptor => exact { hnow with acceptor := .created, stopped := nofun }
  | releaseListener | abortAcceptor =>
    have hs : ch.state = .closed := hc.state_of_closing hi rfl (show 1 < 3 by decide)
    have hr : ch.state.Reaches .closed := Nat.le_of_eq (congrArg _ hs.symm)
    exact { hnow with told := fun _ => hr }
  | wire m | wired m =>
    obtain ⟨ha, ho, hx, hv, hs⟩ := m.view_eq
    exact h.same f ha ho hx hv hs
  | _ => exact hnow

theorem Backed.keeps (h : ch.Backed) (ht : ch.Tracks) (f : Forward ch ch') (m : Move ch a ch') :
    ch'.Backed := by
  cases m with
  | acceptor m => exact m.backed h ht f
  | verifier m => exact m.backed h f
  | consumer m => cases m <;> exact h.same f rfl rfl rfl rfl rfl
  | producer m => cases m <;> exact h.same f rfl rfl rfl rfl rfl
  | relay m => cases m <;> exact h.same f rfl rfl rfl rfl rfl
  | call hi m => exact m.backed hi h ht.closes f
  | _ => exact h.same f rfl rfl rfl rfl rfl

/-! ## What is shown -/

/-- Verification shows an outcome only once those who wait know whom it is about. -/
theorem Tracks.accepted_of_verified (h : ch.Tracks) (ho : ch.verified = some o) :
    ∃ l, ch.accepted? = some (.ok l) := by
  have hshows := h.closes.inv.gathers.shows
  rw [ho] at hshows
  have hv : ch.verifier ≠ .absent := by
    intro hv
    have hp := hshows.not_pending
    rw [hv] at hp
    cases hp
  obtain ⟨hfree, -, hu⟩ := h.closes.inv.accepts.claim.of_started hv
  have hanswer := h.answers
  unfold Answers at hanswer
  rw [hu] at hanswer
  obtain ⟨l, -, hl⟩ := hanswer.of_verified hfree
  exact ⟨l, by simp [accepted?, hl]⟩

theorem Tracks.complete?_eq_ok_iff (h : ch.Tracks) :
    ch.complete? = some (.ok o) ↔ ch.verified = some o := by
  constructor
  · intro hc
    unfold complete? at hc
    split at hc
    · cases hc
    · cases hc
    · split at hc
      · rename_i hv
        cases hc
        exact hv
      · split at hc <;> cases hc
  · intro ho
    obtain ⟨l, hl⟩ := h.accepted_of_verified ho
    simp [complete?, hl, ho]

/-- A wait for verification fails only if the one for a connection does. -/
theorem Tracks.complete?_error (h : ch.Tracks) {e : ChannelError}
    (hc : ch.complete? = some (.error e)) : ch.accepted? = some (.error e) := by
  cases ha : ch.accepted? with
  | none => simp [complete?, ha] at hc
  | some r =>
    cases r with
    | error e' => simpa [complete?, ha] using hc
    | ok l =>
      have hm := h.answers.mayVerify h.closes.inv ha
      cases hv : ch.verified <;> simp [complete?, ha, hv, hm] at hc

theorem Backed.reached_of_ok (h : ch.Backed) {l : LinkId} (hr : ch.accepted? = some (.ok l)) :
    ch.state.Reaches .accepted := by
  unfold accepted? at hr
  split at hr
  · rename_i ho
    exact h.accepted _ ho
  · cases hr
  · split at hr <;> cases hr

theorem Backed.reached_of_error (h : ch.Backed) {e : ChannelError}
    (hr : ch.accepted? = some (.error e)) : ch.state.Reaches .failed := by
  unfold accepted? at hr
  split at hr
  · cases hr
  · rename_i ho
    exact h.accepted _ ho
  · rename_i ho
    split at hr
    · rename_i ha
      exact (h.stopped ha ho).trans (by decide)
    · cases hr

/-! ## Every run -/

/-- What holds of all that is shown whenever it is looked at. -/
structure Shown (ch : Channel) : Prop where
  tracks : ch.Tracks
  behind : ch.Behind
  backed : ch.Backed

theorem Shown.keeps (h : ch.Shown) (m : Move ch a ch') : ch'.Shown :=
  have f := m.forward h.behind h.tracks.closes.inv
  ⟨h.tracks.keeps m, f.behind, h.backed.keeps h.tracks f m⟩

theorem Shown.of_create {m : Machine} {faults : Faults} {config : Config} {fresh : SessionId}
    {port : UInt16} {shape : Json.Shape}
    (h : create m faults config fresh port shape = .ok ch) : ch.Shown := by
  have ht := Tracks.of_create h
  obtain ⟨descriptor, codec, rfl⟩ := create_eq h
  exact ⟨ht, .inr (Nat.le_refl _), ⟨.created, nofun, nofun, nofun, .created, nofun⟩⟩

/-- In every run, whoever waits for the worker is told the same ever after: that it was accepted or
why it was not, and the outcome of its verification. An outcome of verification is seen only if the
worker was accepted, and waiting for it gives what can be seen of it. Nothing is seen ahead of the
state: not that accepting failed before the channel has failed or is closed, not that the worker was
accepted before the state says so, and no outcome of verification before the state it leads to. -/
theorem waits_stable_and_backed {m : Machine} {faults : Faults} {config : Config}
    {fresh : SessionId} {port : UInt16} {shape : Json.Shape} {start : Channel}
    (hstart : create m faults config fresh port shape = .ok start) (before after : List Action) :
    let ch := start.run before
    let later := start.run (before ++ after)
    ((∀ r, ch.accepted? = some r → later.accepted? = some r) ∧
      (∀ r, ch.complete? = some r → later.complete? = some r) ∧
      ∀ o, ch.verified = some o → later.verified = some o) ∧
    (∀ o, ch.complete? = some (.ok o) → ∃ l, ch.accepted? = some (.ok l)) ∧
    (∀ e, ch.accepted? = some (.error e) ∨ ch.complete? = some (.error e) →
      ch.state = .failed ∨ ch.state = .closed) ∧
    (∀ l, ch.accepted? = some (.ok l) → ch.state.Reaches .accepted) ∧
    (ch.verified = some .verified →
      ch.state = .authenticated ∨ ch.state = .ready ∨ ch.state = .failed ∨ ch.state = .closed) ∧
    (∀ o, ch.verified = some o → o ≠ .verified → ch.state = .failed ∨ ch.state = .closed) ∧
    ∀ o, ch.verified = some o ↔ ch.complete? = some (.ok o) := by
  intro ch later
  have h : ch.Shown := run_keeps Shown.keeps (.of_create hstart) before
  have hi := h.tracks.closes.inv
  have hlater : later = ch.run after := by simp [later, ch, run]
  refine ⟨⟨fun r hr => ?_, fun r hr => ?_, fun o ho => ?_⟩, fun o ho => ?_, fun e he => ?_,
    fun l hl => h.backed.reached_of_ok hl, fun ho => (h.backed.verified _ ho).authenticated,
    fun o ho hne => ?_, fun o => h.tracks.complete?_eq_ok_iff.symm⟩
  · rw [hlater]
    exact h.tracks.answers.accepted?_run hi hr after
  · rw [hlater]
    exact h.tracks.answers.complete?_run hi hr after
  · rw [hlater, ← (h.tracks.run after).complete?_eq_ok_iff]
    exact h.tracks.answers.complete?_run hi (h.tracks.complete?_eq_ok_iff.2 ho) after
  · exact h.tracks.accepted_of_verified (h.tracks.complete?_eq_ok_iff.1 ho)
  · exact (h.backed.reached_of_error (he.elim id h.tracks.complete?_error)).ended
  · have hr := h.backed.verified o ho
    rw [Authentication.state, if_neg (by rwa [Authentication.isVerified_iff])] at hr
    exact hr.ended

theorem waits_stable_and_backed_of_exampleRun :
    let closing : List Action := .begin .close :: List.replicate 7 (.call 3)
    (exampleStart.run (exampleRun ++ closing)).complete? = some (.ok .verified) ∧
      (exampleStart.run exampleRun).state ≠ .accepted := by
  intro closing
  have hverified : (exampleStart.run exampleRun).verified = some .verified := by decide +kernel
  obtain ⟨⟨-, hstable, -⟩, -, -, -, hstate, -, hiff⟩ :=
    waits_stable_and_backed create_exampleStart exampleRun closing
  refine ⟨hstable _ ((hiff _).1 hverified), fun hs => ?_⟩
  rcases hstate hverified with h | h | h | h <;> rw [hs] at h <;> cases h

end Channel

end WorkerLink
