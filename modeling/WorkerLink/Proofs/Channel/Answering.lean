import WorkerLink.Proofs.Channel.Invariant

/-!
# What those are told who wait for the worker

The outcome of accepting is published once, and it belongs to the connection in the worker slot or
to accepting that has failed (`Answers`). Nobody stops accepting without an outcome unless the
channel was closed.
-/

namespace WorkerLink

/-- Whether accepting has neither stopped nor yet to publish whom it accepted. -/
def Acceptor.isOngoing : Acceptor → Bool
  | .stopped | .announcing _ => false
  | _ => true

namespace Channel

variable {ch ch' : Channel} {a : Action}

/-- The published outcome of accepting, by the point that accepting has reached, whether
verification can still be started, and the worker slot. -/
inductive Answer (closed : Bool) :
    Acceptor → Bool → Option LinkId → Option AcceptOutcome → Prop where
  | waiting {a : Acceptor} {s : Option LinkId} (h : a.isOngoing = true ∨ closed = true) :
    Answer closed a true s none
  | failed {reason : String} : Answer closed .stopped true none (some (.failed reason))
  | announcing {l : LinkId} : Answer closed (.announcing l) false (some l) none
  | accepted {a : Acceptor} {l : LinkId} : Answer closed a false (some l) (some (.accepted l))

/-- What has been published of accepting belongs to how far it has come. -/
def Answers (ch : Channel) : Prop := Answer ch.closed ch.acceptor ch.unverified ch.slot ch.accepted

namespace Answer

variable {closed : Bool} {a b : Acceptor} {u : Bool} {s : Option LinkId}
  {o : Option AcceptOutcome} {l : LinkId}

theorem move (h : Answer closed a u s o) (ha : a.isOngoing = true) (hb : b.isOngoing = true) :
    Answer closed b u s o := by
  cases h with
  | waiting => exact .waiting (.inl hb)
  | failed | announcing => cases ha
  | accepted => exact .accepted

/-- Accepting stops with nothing left to publish. -/
theorem stop (h : Answer closed a u s o) (ha : a.isOngoing = true)
    (hu : u = false ∨ closed = true) : Answer closed .stopped u s o := by
  cases h with
  | waiting =>
    rcases hu with hu | hc
    · cases hu
    · exact .waiting (.inr hc)
  | failed | announcing => cases ha
  | accepted => exact .accepted

theorem claim (h : Answer closed (.taken l) u none o) :
    Answer closed (.claimed l) u (some l) o := by
  cases h with
  | waiting => exact .waiting (.inl rfl)

theorem accept (h : Answer closed (.claimed l) true (some l) o) :
    Answer closed (.announcing l) false (some l) o := by
  cases h with
  | waiting => exact .announcing

theorem of_unverified (h : Answer closed a true s o) (ha : a.isOngoing = true) : o = none := by
  cases h with
  | waiting => rfl
  | failed => cases ha

theorem of_stopped (h : Answer false .stopped true s o) : ∃ reason, o = some (.failed reason) := by
  cases h with
  | waiting hs => rcases hs with hs | hs <;> cases hs
  | failed => exact ⟨_, rfl⟩

theorem of_verified (h : Answer closed a false s o) (ha : a.isFree = true) :
    ∃ l, s = some l ∧ o = some (.accepted l) := by
  cases h with
  | announcing => cases ha
  | accepted => exact ⟨_, rfl, rfl⟩

theorem close (h : Answer closed a u s o) : Answer true a u s o := by
  cases h with
  | waiting => exact .waiting (.inr rfl)
  | failed => exact .failed
  | announcing => exact .announcing
  | accepted => exact .accepted

end Answer

theorem AcceptorMove.answers (m : AcceptorMove ch ch') (h : ch.Answers) (hi : ch.Inv) :
    ch'.Answers := by
  have hclaim := hi.accepts.claim
  unfold Answers at h ⊢
  cases m with
  | abort ha hab =>
    rw [ha] at h
    refine h.stop rfl ?_
    cases hc : ch.closed with
    | true => exact .inr rfl
    | false =>
      rw [(hi.open_of hc).acceptor] at hab
      cases hab
  | wake ha | wait ha | take ha | refuse ha | turnAway ha | verify ha | verifyBlind ha | fail ha =>
    rw [ha] at h
    exact h.move rfl rfl
  | giveUp ha _ hu =>
    rw [ha] at h
    exact h.stop rfl (.inl hu)
  | claim ha hs =>
    rw [ha, hs] at h
    exact h.claim
  | accept ha hu =>
    rw [ha] at h hclaim
    rw [hu, hclaim.accept.1] at h
    simp only [advance, hclaim.accept.1]
    exact h.accept
  | skip ha hu =>
    rw [ha] at hclaim
    rw [hclaim.accept.2.1] at hu
    cases hu
  | announce ha =>
    rw [ha] at hclaim
    simp only [hclaim.announce.1, hclaim.announce.2.1]
    exact .accepted
  | report ha =>
    rw [ha] at hclaim
    generalize ch.slot = s at hclaim ⊢
    generalize ch.unverified = u at hclaim ⊢
    generalize ch.verifier = v at hclaim
    cases hclaim with
    | unclaimed => exact .failed
    | started _ hs => cases hs

theorem Answers.keeps (h : ch.Answers) (hi : ch.Inv) (m : Move ch a ch') : ch'.Answers := by
  cases m with
  | acceptor m => exact m.answers h hi
  | verifier m =>
    cases m with
    | wire _ m | wired _ m => cases m <;> exact h
    | _ => exact h
  | consumer m => cases m <;> exact h
  | producer m => cases m <;> exact h
  | relay m => cases m <;> exact h
  | call hc m =>
    cases m with
    | spawnAcceptor =>
      unfold Answers at h
      rw [acceptor_absent hc rfl hi.accepts.hands] at h
      exact h.move rfl rfl
    | close => exact h.close
    | wire m | wired m => cases m <;> exact h
    | _ => exact h
  | _ => exact h

theorem Answers.run (h : ch.Answers) (hi : ch.Inv) (as : List Action) : (ch.run as).Answers :=
  (run_keeps (P := fun ch => ch.Inv ∧ ch.Answers)
    (fun h m => ⟨h.1.keeps m, h.2.keeps h.1 m⟩) ⟨hi, h⟩ as).2

/-! ## Those who wait -/

/-- Nobody starts to accept again. -/
theorem Move.stays_stopped (m : Move ch a ch') (hacc : ch.Accepts) (h : ch.acceptor = .stopped) :
    ch'.acceptor = .stopped := by
  cases m with
  | acceptor m => cases m <;> simp_all
  | verifier m => exact m.accepting.1.trans h
  | consumer m => cases m <;> exact h
  | producer m => cases m <;> exact h
  | relay m => cases m <;> exact h
  | call hi m =>
    cases m with
    | spawnAcceptor =>
      rw [acceptor_absent hi rfl hacc.hands] at h
      cases h
    | wire m | wired m => exact m.accepting.1.trans h
    | _ => exact h
  | _ => exact h

/-- Accepting publishes its outcome with the step that it takes for it. -/
theorem Move.accepted_cases (m : Move ch a ch') :
    ch'.accepted = ch.accepted ∨
      (∃ l, ch.acceptor = .announcing l ∧ ch'.accepted = some (.accepted l)) ∨
      ∃ reason, ch.acceptor = .reporting reason := by
  cases m with
  | acceptor m =>
    cases m with
    | announce ha => exact .inr (.inl ⟨_, ha, rfl⟩)
    | report ha => exact .inr (.inr ⟨_, ha⟩)
    | _ => exact .inl rfl
  | verifier m =>
    cases m with
    | wire _ m | wired _ m => cases m <;> exact .inl rfl
    | _ => exact .inl rfl
  | consumer m => cases m <;> exact .inl rfl
  | producer m => cases m <;> exact .inl rfl
  | relay m => cases m <;> exact .inl rfl
  | call _ m =>
    cases m with
    | wire m | wired m => cases m <;> exact .inl rfl
    | _ => exact .inl rfl
  | _ => exact .inl rfl

/-- The outcome of accepting is published once. -/
theorem Move.accepted_eq (m : Move ch a ch') (h : ch.Answers) (hc : ch.Accepts)
    {o : AcceptOutcome} (ho : ch.accepted = some o) : ch'.accepted = some o := by
  have hclaim := hc.claim
  unfold Answers at h
  rw [ho] at h
  rcases m.accepted_cases with he | ⟨l, ha, he⟩ | ⟨reason, ha⟩
  · exact he.trans ho
  · rw [ha] at h hclaim
    rw [hclaim.announce.1, hclaim.announce.2.1] at h
    cases h with
    | accepted => exact he
  · rw [ha] at h hclaim
    rw [(hclaim.unclaimed_of_failed rfl rfl).1] at h
    cases h

/-- The outcome of verification is published once. -/
theorem Move.verified_eq (m : Move ch a ch') (hi : ch.Inv) {o : Authentication}
    (ho : ch.verified = some o) : ch'.verified = some o := by
  cases m with
  | acceptor m => cases m <;> exact ho
  | verifier m =>
    cases m with
    | publish hv =>
      have hshows := hi.gathers.shows
      rw [hv, ho] at hshows
      generalize ch.authentication = recorded at hshows
      cases hshows with
      | recorded hr => cases hr
    | wire _ m | wired _ m => exact m.outcome_eq.1.trans ho
    | _ => exact ho
  | consumer m => cases m <;> exact ho
  | producer m => cases m <;> exact ho
  | relay m => cases m <;> exact ho
  | call _ m => exact m.outcome_eq.2.1.trans ho
  | _ => exact ho

/-- A wait for a connection that has come to an end gives what it gave. -/
theorem Move.accepted?_eq (m : Move ch a ch') (h : ch.Answers) (hc : ch.Accepts)
    {r : Except ChannelError LinkId} (hr : ch.accepted? = some r) : ch'.accepted? = some r := by
  cases ho : ch.accepted with
  | some o =>
    have ho' := m.accepted_eq h hc ho
    cases o <;> simpa [accepted?, ho, ho'] using hr
  | none =>
    have ha : ch.acceptor = .stopped := by
      by_contra hn
      simp [accepted?, ho, hn] at hr
    have ho' : ch'.accepted = none := by
      rcases m.accepted_cases with he | ⟨l, hl, -⟩ | ⟨reason, hl⟩
      · exact he.trans ho
      · rw [ha] at hl
        cases hl
      · rw [ha] at hl
        cases hl
    simpa [accepted?, ho, ho', ha, m.stays_stopped hc ha] using hr

/-- Whoever was told that a worker is there can still be told how its verification came out. -/
theorem Answers.mayVerify (h : ch.Answers) (hi : ch.Inv) {l : LinkId}
    (hr : ch.accepted? = some (.ok l)) : ch.mayVerify = true := by
  have hclaim := hi.accepts.claim
  have hshows := hi.gathers.shows
  unfold Answers at h
  cases hv : ch.verifier with
  | absent =>
    cases ha : ch.acceptor with
    | stopped =>
      rw [ha, hv] at hclaim
      rw [ha, (hclaim.unclaimed_of_absent rfl).1, (hclaim.unclaimed_of_absent rfl).2] at h
      generalize ho : ch.accepted = o at h
      cases h <;> simp [accepted?, ho, ha] at hr
    | _ => simp [Channel.mayVerify, hv, ha]
  | dropped =>
    rw [hv] at hshows
    generalize ch.verified = shown at hshows
    generalize ch.authentication = recorded at hshows
    cases hshows with
    | pending hp | recorded hp => cases hp
  | _ => simp [Channel.mayVerify, hv]

/-- A wait for verification that has come to an end gives what it gave. -/
theorem Move.complete?_eq (m : Move ch a ch') (h : ch.Answers) (hi : ch.Inv)
    {r : Except ChannelError Authentication} (hr : ch.complete? = some r) :
    ch'.complete? = some r := by
  cases ho : ch.accepted? with
  | none => simp [complete?, ho] at hr
  | some o =>
    have ho' := m.accepted?_eq h hi.accepts ho
    cases o with
    | error e => simpa [complete?, ho, ho'] using hr
    | ok l =>
      cases hv : ch.verified with
      | some o => simpa [complete?, ho, ho', hv, m.verified_eq hi hv] using hr
      | none => simp [complete?, ho, hv, h.mayVerify hi ho] at hr

theorem Answers.accepted?_run (h : ch.Answers) (hi : ch.Inv) {r : Except ChannelError LinkId}
    (hr : ch.accepted? = some r) (as : List Action) : (ch.run as).accepted? = some r :=
  (run_keeps (P := fun ch => (ch.Inv ∧ ch.Answers) ∧ ch.accepted? = some r)
    (fun ⟨⟨hi, h⟩, hr⟩ m => ⟨⟨hi.keeps m, h.keeps hi m⟩, m.accepted?_eq h hi.accepts hr⟩)
    ⟨⟨hi, h⟩, hr⟩ as).2

theorem Answers.complete?_run (h : ch.Answers) (hi : ch.Inv)
    {r : Except ChannelError Authentication} (hr : ch.complete? = some r) (as : List Action) :
    (ch.run as).complete? = some r :=
  (run_keeps (P := fun ch => (ch.Inv ∧ ch.Answers) ∧ ch.complete? = some r)
    (fun ⟨⟨hi, h⟩, hr⟩ m => ⟨⟨hi.keeps m, h.keeps hi m⟩, m.complete?_eq h hi hr⟩)
    ⟨⟨hi, h⟩, hr⟩ as).2

/-- Once accepting has stopped without a connection in the worker slot, whoever waits for the worker
is told so. -/
theorem Answers.refused (h : ch.Answers) (ha : ch.acceptor = .stopped) (hs : ch.slot = none) :
    ∃ reason, ch.accepted? = some (.error (.accept reason)) ∧
      ch.complete? = some (.error (.accept reason)) := by
  unfold Answers at h
  rw [hs, ha] at h
  generalize ho : ch.accepted = o at h
  generalize ch.unverified = u at h
  cases h with
  | waiting =>
    exact ⟨"channel closed before a worker connected", by simp [accepted?, ho, ha],
      by simp [complete?, accepted?, ho, ha]⟩
  | @failed reason =>
    exact ⟨reason, by simp [accepted?, ho], by simp [complete?, accepted?, ho]⟩

end Channel

end WorkerLink
