import WorkerLink.Proofs.Channel.Binding

/-!
# The state says how far the channel has come

While a channel is not closed, its state is determined by the point that accepting, verification
and binding the streams have reached (`Standing`).
-/

namespace WorkerLink

theorem Lifecycle.advance_eq {s : Lifecycle} (hf : s ≠ .failed) (hc : s ≠ .closed)
    (next : Lifecycle) : s.advance next = next := by
  cases s <;> first | rfl | exact (hf rfl).elim | exact (hc rfl).elim

/-- Whether a call is about to start accepting, and the state says so. -/
def Call.isSpawning : Call → Bool
  | .connectSpawn => true
  | _ => false

/-- The state of a channel before verification can be started. -/
def Acceptor.state (a : Acceptor) (spawning : Bool) : Lifecycle :=
  match a with
  | .absent => if spawning then .accepting else .listening
  | .reporting _ | .stopped => .failed
  | _ => .accepting

/-- The state that an outcome of verification leads to. -/
def Authentication.state (o : Authentication) : Lifecycle :=
  if o.isVerified then .authenticated else .failed

theorem Authentication.isVerified_iff {o : Authentication} :
    o.isVerified = true ↔ o = .verified := by
  cases o <;> simp [isVerified]

namespace Channel

variable {ch ch' : Channel} {a : Action} {w w' : Wiring}

/-- The state of a channel whose worker is verified. -/
def boundState (ch : Channel) : Lifecycle :=
  match ch.wirings with
  | [] =>
    if ch.gate.remaining = 0 then if ch.streams = .both then .ready else .failed
    else .authenticated
  | w :: _ => if w = .giveBack then .failed else .authenticated

/-- The state of a channel before its worker is put into verification. -/
def waitingState (ch : Channel) : Lifecycle :=
  if ch.unverified then ch.acceptor.state (decide (0 < ch.calls.countP Call.isSpawning))
  else .accepted

/-- What the state of a channel is that was not closed. -/
def Standing (ch : Channel) : Prop :=
  match ch.verifier with
  | .absent => ch.state = ch.waitingState
  | .spawned _ => ch.state = .accepted
  | .reading _ => ch.state = .authenticating
  | .judged _ => ch.state = .accepted ∨ ch.state = .authenticating
  | .publishing o | .recording o => ch.state = o.state
  | .arriving | .wiring _ | .finished | .dropped => ∀ o, ch.authentication = some o →
      ch.state = if o.isVerified then ch.boundState else .failed

/-- Once the outcome is recorded, the state is that of the outcome and of binding the streams. -/
theorem standing_recorded (h : ch.verifier.isRecorded = true) :
    ch.Standing ↔ ∀ o, ch.authentication = some o →
      ch.state = if o.isVerified then ch.boundState else .failed := by
  unfold Standing
  cases hv : ch.verifier <;> simp_all [Verifier.isRecorded]

theorem Standing.of_eq (h : ch.Standing) (hv : ch'.verifier = ch.verifier)
    (hs : ch'.state = ch.state) (hw : ch.verifier = .absent → ch'.waitingState = ch.waitingState)
    (ha : ch'.authentication = ch.authentication) (hb : ch'.boundState = ch.boundState) :
    ch'.Standing := by
  unfold Standing at h ⊢
  rw [hv, hs, ha, hb]
  cases hx : ch.verifier with
  | absent =>
    rw [hx] at h
    rw [hw hx]
    exact h
  | _ =>
    rw [hx] at h
    exact h

/-! ## Binding the streams -/

theorem Leaves.boundState_eq (l : Leaves ch ch') (hs : ch'.streams = ch.streams) :
    ch'.boundState = ch.boundState := by
  unfold boundState
  cases l with
  | same hw hg => simp only [hw, hs, hg]
  | opens hg hg' hw hw' => simp [hw, hw', hg]

theorem WiringMove.state (m : WiringMove ch w ch' w') (hc : ch.closed = false) (hw : w ≠ .finished)
    (ha : w ≠ .abort) (hat : ch.At w) (hs : ch.state = if w = .giveBack then .failed else
      .authenticated) :
    ch'.state = if w' = .finished then if ch'.streams = .both then .ready else .failed
      else if w' = .giveBack then .failed else .authenticated := by
  have st := hat.streams
  cases m with
  | closed hcl | recheckClosed hcl =>
    rw [hc] at hcl
    cases hcl
  | fail | announce =>
    simp only [reduceCtorEq, if_false] at hs
    simp_all [advance, Lifecycle.advance, Channel.streams, Wiring.streams]
  | giveBack =>
    have hne : ch.streams ≠ .both := by
      rw [st]
      decide
    have hst : Channel.streams { ch with countdown := ch.countdown.discard } = ch.streams := rfl
    simp only [if_true] at hs ⊢
    rw [hst, if_neg hne, hs]
  | finished => exact (hw rfl).elim
  | abort => exact (ha rfl).elim
  | _ => exact hs

theorem WiringMove.failed (m : WiringMove ch w ch' w') (h : ch.state = .failed) :
    ch'.state = .failed := by
  cases m with
  | fail | announce => simp [advance, h, Lifecycle.advance]
  | _ => exact h

theorem Binds.standing (b : Binds ch w ch') (h : ch.Standing) (hg : ch.Gathers) (ho : ch.Open)
    (hc : ch.closed = false) : ch'.Standing := by
  cases b with
  | @step w' ch₁ v cs m hw hz hne hat hw' hv hcs =>
    have ha := ho.ne_abort hw
    have hold := (standing_recorded (hg.isRecorded hz)).1 h
    refine (standing_recorded hv).2 fun o hout => ?_
    have hout' : ch.authentication = some o := m.outcome_eq.2.1 ▸ hout
    have hstate := hold o hout'
    cases hver : o.isVerified with
    | false =>
      rw [hver] at hstate
      exact m.failed hstate
    | true =>
      rw [hver, if_pos rfl] at hstate
      have hb : ch.state = if w = .giveBack then .failed else .authenticated := by
        rw [hstate, boundState, hw]
      have hm := m.state hc hne ha hat hb
      have hz' : ch₁.gate.remaining = 0 := m.gate_eq ▸ hz
      rw [if_pos rfl, boundState, wirings, hw']
      by_cases hf : w' = .finished
      · rw [if_pos hf] at hm
        simp only [hf, if_true, hz']
        exact hm
      · rw [if_neg hf] at hm
        simp only [hf, if_false]
        exact hm

/-! ## Every other move -/

theorem AcceptorMove.standing (m : AcceptorMove ch ch') (h : ch.Standing) (hi : ch.Inv)
    (ho : ch.Open) (hb : ch'.boundState = ch.boundState) : ch'.Standing := by
  have hclaim := hi.accepts.claim
  -- before verification the state is the one that accepting is in
  have absent (hv : ch.verifier = .absent) : ch.state = ch.waitingState := by
    unfold Standing at h
    rwa [hv] at h
  cases m with
  | abort _ ha =>
    rw [ho.acceptor] at ha
    cases ha
  | wake ha | wait ha | take ha | turnAway ha | claim ha =>
    refine h.of_eq rfl rfl (fun _ => ?_) rfl hb
    simp [waitingState, Acceptor.state, ha, openDescriptor]
  | refuse ha _ hu =>
    refine h.of_eq rfl rfl (fun _ => ?_) rfl hb
    simp [waitingState, Acceptor.state, ha, error]
  | giveUp _ _ hu =>
    refine h.of_eq rfl rfl (fun _ => ?_) rfl hb
    simp [waitingState, hu]
  | accept ha hu =>
    rw [ha] at hclaim
    have hv := hclaim.accept.2.2
    have hs := absent hv
    simp only [waitingState, hu, ha, Acceptor.state, if_true] at hs
    simp [Standing, waitingState, hv, advance, hs, Lifecycle.advance]
  | skip ha hu =>
    rw [ha] at hclaim
    rw [hclaim.accept.2.1] at hu
    cases hu
  | announce ha =>
    rw [ha] at hclaim
    refine h.of_eq rfl rfl (fun _ => ?_) rfl hb
    simp [waitingState, hclaim.announce.2.1]
  | verify ha | verifyBlind ha =>
    rw [ha] at hclaim
    have hs := absent hclaim.verify.2.2
    simp only [waitingState, hclaim.verify.2.1, Bool.false_eq_true, if_false] at hs
    exact hs
  | fail ha | report ha =>
    rw [ha] at hclaim
    obtain ⟨hu, hv⟩ := hclaim.unclaimed_of_failed rfl rfl
    have hs := absent hv
    simp only [waitingState, hu, ha, Acceptor.state, if_true] at hs
    simp [Standing, waitingState, hv, hu, advance, hs, Lifecycle.advance, Acceptor.state]

theorem VerifierMove.standing (m : VerifierMove ch ch') (h : ch.Standing) (hg : ch.Gathers)
    (hw : ch.verifier.wiring? = none) (hb : ch'.boundState = ch.boundState) : ch'.Standing := by
  unfold Standing at h
  cases m with
  | begin hv =>
    rw [hv] at h
    simp [Standing, advance, h, Lifecycle.advance]
  | blind hv =>
    rw [hv] at h
    exact .inl h
  | read hv =>
    rw [hv] at h
    exact h
  | complete hv | ended hv | broke hv =>
    rw [hv] at h
    exact .inr h
  | @judge o hv =>
    rw [hv] at h
    have hne : ch.state ≠ .failed ∧ ch.state ≠ .closed := by
      rcases h with h | h <;> simp [h]
    exact Lifecycle.advance_eq hne.1 hne.2 _
  | publish hv =>
    rw [hv] at h
    exact h
  | @record o hv =>
    rw [hv] at h
    have hs := hg.shows
    rw [hv] at hs
    intro o' ho'
    rw [hs.none_of_recording, Option.none_or, Option.some.injEq] at ho'
    subst ho'
    have hpos : 0 < ch.gate.remaining := by
      by_contra hz
      have hauth := (all_signals hg.signals (by omega)).2.1
      rw [hs.none_of_recording] at hauth
      cases hauth
    have hbound : ch.boundState = .authenticated := by
      simp [boundState, (hg.wired.before hpos).1, Nat.ne_of_gt hpos]
    rw [hb, hbound]
    exact h
  | opens hv | arrives hv | surplus hv =>
    rw [hv] at h
    intro o ho
    rw [hb]
    exact h o ho
  | wire hv | wired hv =>
    rw [hv] at hw
    cases hw

theorem CallMove.standing {i : Nat} {c c' : Call} (m : CallMove ch c ch' c')
    (hi : ch.calls[i]? = some c) (h : ch.Standing) (hacc : ch.Accepts) (hc : ch.closed = false)
    (hc' : ch'.closed = false) (hcl : c.isClosing = false) (hw : c.wiring? = none)
    (hb : boundState { ch' with calls := ch'.calls.set i c' } = ch.boundState) :
    Standing { ch' with calls := ch'.calls.set i c' } := by
  -- the state as long as nobody accepts
  have idle (hx : c.isConnecting = true) : ch.verifier = .absent ∧ ch.unverified = true ∧
      ch.acceptor = .absent ∧
      ch.state = if 0 < ch.calls.countP Call.isSpawning then .accepting else .listening := by
    have ha := acceptor_absent hi hx hacc.hands
    have hclaim := hacc.claim
    rw [ha] at hclaim
    obtain ⟨-, hu, hv⟩ := hclaim.absent
    unfold Standing at h
    rw [hv] at h
    refine ⟨hv, hu, ha, ?_⟩
    simpa [waitingState, hu, ha, Acceptor.state] using h
  have spawning (hx : c.isSpawning = false) (hx' : c'.isSpawning = false) :
      (ch.calls.set i c').countP Call.isSpawning = ch.calls.countP Call.isSpawning := by
    have hn := countP_set_add Call.isSpawning hi c'
    simp only [hx, hx', Bool.toNat_false] at hn
    exact hn
  cases m with
  | announceAccepting =>
    obtain ⟨hv, hu, ha, hs⟩ := idle rfl
    have hpos : 0 < (ch.calls.set i .connectSpawn).countP Call.isSpawning := by
      have hn := countP_set_add Call.isSpawning hi .connectSpawn
      simp only [Call.isSpawning, Bool.toNat_false, Bool.toNat_true] at hn
      omega
    have hadv : ch.state.advance .accepting = .accepting := by
      rw [hs]
      split <;> rfl
    simp [Standing, waitingState, hv, hu, ha, Acceptor.state, advance, hpos, hadv]
  | spawnAcceptor =>
    obtain ⟨hv, hu, ha, hs⟩ := idle rfl
    rw [if_pos (countP_pos Call.isSpawning hi rfl)] at hs
    simp [Standing, waitingState, hv, hu, Acceptor.state, hs]
  | close => cases hc'
  | alreadyClosed hx =>
    rw [hc] at hx
    cases hx
  | giveBack | announceClosed | shutNobody | shutWorker | shutFailed | releaseListener
  | abortAcceptor | abortStreams | abortConsole => cases hcl
  | wire | wired => cases hw
  | _ =>
    have hn := spawning rfl rfl
    exact h.of_eq rfl rfl (fun _ => congrArg (fun n => if ch.unverified then
      ch.acceptor.state (decide (0 < n)) else .accepted) hn) rfl hb

theorem Standing.keeps (h : ch.Standing) (hi : ch.Inv) (m : Move ch a ch')
    (hc : ch'.closed = false) : ch'.Standing := by
  have ho := m.open_of_open hc
  have hopen := hi.open_of ho
  cases hb : ch.binds? a with
  | some w => exact (m.binds hi.gathers hb).standing h hi.gathers hopen ho
  | none =>
    obtain ⟨extends', leaves⟩ := m.bystander hi.gathers hi.accepts hb
    have hbound := leaves.boundState_eq extends'.streams
    cases m with
    | acceptor m => exact m.standing h hi hopen hbound
    | verifier m => exact m.standing h hi.gathers hb hbound
    | consumer m => cases m <;> exact h.of_eq rfl rfl (fun _ => rfl) rfl hbound
    | producer m => cases m <;> exact h.of_eq rfl rfl (fun _ => rfl) rfl hbound
    | relay m => cases m <;> exact h.of_eq rfl rfl (fun _ => rfl) rfl hbound
    | @begin r =>
      refine h.of_eq rfl rfl (fun _ => ?_) rfl hbound
      cases r <;> simp [waitingState, Request.call, Call.isSpawning]
    | @call i c c' ch' hcall m =>
      simp only [binds?, hcall, Option.bind_some] at hb
      exact m.standing hcall h hi.accepts ho hc (hopen.calls c (List.mem_of_getElem? hcall)) hb
        hbound
    | _ => exact h.of_eq rfl rfl (fun _ => rfl) rfl hbound

end Channel

end WorkerLink
