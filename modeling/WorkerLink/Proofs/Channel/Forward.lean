import WorkerLink.Proofs.Channel.Admission
import WorkerLink.Proofs.Channel.Binding
import WorkerLink.Proofs.Channel.Standing

/-!
# The state never goes back

A step that moves the state on writes its own state whatever the one before was, unless that was an
end. So how far the state has come depends on the order in which accepting, verification, the calls
of the owner and whoever binds the streams write. `Channel.reach` is the furthest state that any of
them can have written by now, and no later than it does one of them write next (`Behind`). The state
goes forward with every step (`Move.forward`), and so it does in every run (`state_precedes`).
-/

namespace WorkerLink

/-- A channel that was seen in the first of two states may be seen in the second one later. -/
def Lifecycle.Precedes (s t : Lifecycle) : Prop :=
  s.number ≤ t.number ∧ (s = .ready → t ≠ .failed)

namespace Lifecycle.Precedes

variable {s t u : Lifecycle}

theorem refl (s : Lifecycle) : s.Precedes s :=
  ⟨Nat.le_refl _, by rintro rfl ⟨⟩⟩

theorem trans (h : s.Precedes t) (h' : t.Precedes u) : s.Precedes u := by
  refine ⟨Nat.le_trans h.1 h'.1, fun hs hu => ?_⟩
  -- only being ready and having failed lie between the two
  subst hs hu
  obtain ⟨hle, hne⟩ := h
  obtain ⟨hle', hne'⟩ := h'
  cases t <;> simp_all [number]

theorem of_failed (h : Lifecycle.failed.Precedes t) : t = .failed ∨ t = .closed := by
  obtain ⟨hle, -⟩ := h
  cases t <;> simp_all [number]

theorem of_closed (h : Lifecycle.closed.Precedes t) : t = .closed := by
  obtain ⟨hle, -⟩ := h
  cases t <;> simp_all [number]

/-- An end gives way to nothing but being closed. -/
theorem advance_of_isTerminal (h : s.isTerminal = true) (next : Lifecycle) :
    s.Precedes (s.advance next) ∧ (s.advance next).isTerminal = true := by
  cases s <;> cases next <;> first | exact ⟨⟨by decide, by decide⟩, rfl⟩ | cases h

end Lifecycle.Precedes

namespace Channel

variable {ch ch' : Channel} {a : Action} {w : Wiring}

/-- The furthest state that can have been written by now, unless it is an end. -/
def reach (ch : Channel) : Lifecycle :=
  match ch.verifier with
  | .absent =>
    if ch.unverified then
      if ch.acceptor = .absent ∧ ch.calls.countP Call.isSpawning = 0 then .listening
      else .accepting
    else .accepted
  | .spawned _ => .accepted
  | .reading _ | .judged _ => .authenticating
  | .publishing _ | .recording _ => .authenticated
  | .arriving | .wiring _ | .finished | .dropped =>
    if ch.gate.remaining = 0 ∧ ch.wirings = [] then .ready else .authenticated

/-- The state has come to an end, or is one that can have been written by now. -/
def Behind (ch : Channel) : Prop :=
  ch.state.isTerminal = true ∨ ch.state.number ≤ ch.reach.number

/-- A move that keeps the channel behind what can have been written, and the state going forward. -/
structure Forward (ch ch' : Channel) : Prop where
  behind : ch'.Behind
  precedes : ch.state.Precedes ch'.state

namespace Behind

theorem stay (h : ch.Behind) (hs : ch'.state = ch.state)
    (hr : ch.reach.number ≤ ch'.reach.number) : Forward ch ch' := by
  refine ⟨?_, hs ▸ .refl _⟩
  unfold Behind
  rw [hs]
  exact h.imp_right fun hle => Nat.le_trans hle hr

/-- A state may be written that nobody can have gone beyond. -/
theorem move (h : ch.Behind) (next : Lifecycle) (hs : ch'.state = ch.state.advance next)
    (hle : ch.reach.number ≤ next.number)
    (hf : next = .failed → ch.reach.number < Lifecycle.ready.number)
    (hr : next.isTerminal = true ∨ next.number ≤ ch'.reach.number) : Forward ch ch' := by
  cases ht : ch.state.isTerminal with
  | true =>
    obtain ⟨hp, hend⟩ := Lifecycle.Precedes.advance_of_isTerminal ht next
    exact ⟨.inl (hs ▸ hend), hs ▸ hp⟩
  | false =>
    have hadv : ch.state.advance next = next :=
      Lifecycle.advance_eq (fun he => by simp [he, Lifecycle.isTerminal] at ht)
        (fun he => by simp [he, Lifecycle.isTerminal] at ht) next
    have hbehind : ch.state.number ≤ ch.reach.number := h.resolve_left (by simp [ht])
    rw [hadv] at hs
    refine ⟨?_, ?_⟩
    · unfold Behind
      rw [hs]
      exact hr
    · rw [hs]
      refine ⟨Nat.le_trans hbehind hle, fun hready hfail => ?_⟩
      rw [hready] at hbehind
      exact absurd hbehind (Nat.not_le.2 (hf hfail))

end Behind

/-! ## What can have been written -/

theorem reach_recorded (h : ch.verifier.isRecorded = true) : ch.reach =
    if ch.gate.remaining = 0 ∧ ch.wirings = [] then .ready else .authenticated := by
  unfold reach
  cases hv : ch.verifier <;> first | rfl | simp [hv, Verifier.isRecorded] at h

theorem reach_ready (hv : ch.verifier.isRecorded = true) (hg : ch.gate.remaining = 0)
    (hw : ch.wirings = []) : ch.reach = .ready := by
  rw [reach_recorded hv, if_pos ⟨hg, hw⟩]

theorem reach_authenticated (hv : ch.verifier.isRecorded = true) (hw : ch.wirings ≠ []) :
    ch.reach = .authenticated := by
  rw [reach_recorded hv, if_neg fun h => hw h.2]

theorem le_reach_recorded (hv : ch.verifier.isRecorded = true) :
    Lifecycle.authenticated.number ≤ ch.reach.number := by
  rw [reach_recorded hv]
  split <;> decide

theorem reach_accepting (hv : ch.verifier = .absent) (hu : ch.unverified = true)
    (hs : ch.acceptor ≠ .absent ∨ 0 < ch.calls.countP Call.isSpawning) :
    ch.reach = .accepting := by
  simp only [reach, hv, hu, if_true]
  exact if_neg fun ⟨ha, hn⟩ => hs.elim (fun h => h ha) (fun h => Nat.ne_of_gt h hn)

/-- Nothing of what is there before verification is started lies beyond accepting. -/
theorem reach_unverified_le (hv : ch.verifier = .absent) (hu : ch.unverified = true) :
    ch.reach.number ≤ Lifecycle.accepting.number := by
  simp only [reach, hv, hu, if_true]
  split <;> decide

theorem Leaves.bound_iff (l : Leaves ch ch') :
    (ch'.gate.remaining = 0 ∧ ch'.wirings = []) ↔ (ch.gate.remaining = 0 ∧ ch.wirings = []) := by
  cases l with
  | same hw hg => rw [hw, hg]
  | opens hg _ _ hw' => simp [hw', hg]

/-- Whoever works on the rest leaves alone what can have been written. -/
theorem Leaves.reach_eq (l : Leaves ch ch') (hv : ch'.verifier = ch.verifier)
    (hu : ch'.unverified = ch.unverified) (ha : ch'.acceptor = ch.acceptor)
    (hn : ch'.calls.countP Call.isSpawning = ch.calls.countP Call.isSpawning) :
    ch'.reach = ch.reach := by
  unfold reach
  simp only [hv, hu, ha, hn, l.bound_iff]

theorem Leaves.reach_recorded_eq (l : Leaves ch ch') (hv : ch.verifier.isRecorded = true)
    (hv' : ch'.verifier.isRecorded = true) : ch'.reach = ch.reach := by
  rw [reach_recorded hv, reach_recorded hv']
  simp only [l.bound_iff]

/-! ## Every move -/

/-- Whoever binds the streams writes that it is done, or that it cannot be. -/
theorem Binds.forward (b : Binds ch w ch') (h : ch.Behind) (hg : ch.Gathers) : Forward ch ch' := by
  cases b with
  | @step w' ch₁ v cs m hw hz hne hat hw' hv hcs =>
    have hreach : ch.reach = .authenticated :=
      reach_authenticated (hg.isRecorded hz) (by simp [hw])
    cases m with
    | fail =>
      exact h.move _ rfl (by rw [hreach]; decide) (fun _ => by rw [hreach]; decide) (.inl rfl)
    | announce =>
      have hready : reach { ch.advance .ready with verifier := v, calls := cs } = .ready :=
        reach_ready hv hz hw'
      exact h.move _ rfl (by rw [hreach]; decide) nofun (.inr (Nat.le_of_eq (by rw [hready])))
    | _ => exact h.stay rfl (by rw [hreach]; exact le_reach_recorded hv)

theorem AcceptorMove.forward (m : AcceptorMove ch ch') (h : ch.Behind) (hc : ch.Accepts)
    (l : Leaves ch ch') : Forward ch ch' := by
  have hclaim := hc.claim
  -- before verification is started, accepting has been begun
  have before (hv : ch.verifier = .absent) (hu : ch.unverified = true) :
      ch.reach = .accepting := reach_accepting hv hu (.inl m.ne_absent.1)
  have after (hv : ch'.verifier = .absent) (hu : ch'.unverified = true) :
      ch'.reach = .accepting := reach_accepting hv hu (.inl m.ne_absent.2.1)
  have idle (hs : ch'.state = ch.state) (hv : ch'.verifier = ch.verifier)
      (hu : ch'.unverified = ch.unverified) : Forward ch ch' := by
    refine h.stay hs (Nat.le_of_eq ?_)
    cases hx : ch.verifier with
    | absent =>
      cases hy : ch.unverified with
      | true => rw [before hx hy, after (hv.trans hx) (hu.trans hy)]
      | false => simp [reach, hv, hu, hx, hy]
    | _ =>
      unfold reach
      simp only [hv, hx, l.bound_iff]
  cases m with
  | abort | wake | wait | take | refuse | giveUp | turnAway | claim | skip | announce | report =>
    exact idle rfl rfl rfl
  | accept ha =>
    rw [ha] at hclaim
    obtain ⟨-, hu, hv⟩ := hclaim.accept
    exact h.move _ rfl (by rw [before hv hu]; decide) nofun (.inr (by simp [reach, advance, hv]))
  | verify ha | verifyBlind ha =>
    rw [ha] at hclaim
    obtain ⟨-, hu, hv⟩ := hclaim.verify
    refine h.stay rfl (Nat.le_of_eq ?_)
    simp [reach, hu, hv]
  | fail ha =>
    rw [ha] at hclaim
    obtain ⟨hu, hv⟩ := hclaim.unclaimed_of_failed rfl rfl
    exact h.move _ rfl (by rw [before hv hu]; decide) (fun _ => by rw [before hv hu]; decide)
      (.inl rfl)

theorem VerifierMove.forward (m : VerifierMove ch ch') (h : ch.Behind)
    (hw : ch.verifier.wiring? = none) (l : Leaves ch ch') : Forward ch ch' := by
  cases m with
  | begin hv =>
    exact h.move _ rfl (by simp [reach, hv]; decide) nofun (.inr (by simp [reach]))
  | blind hv => exact h.stay rfl (by simp [reach, hv]; decide)
  | read hv | complete hv | ended hv | broke hv =>
    exact h.stay rfl (by simp [reach, hv])
  | @judge o hv =>
    have hr : ch.reach = .authenticating := by simp [reach, hv]
    cases ho : o.isVerified with
    | true =>
      exact h.move .authenticated (by simp [advance]) (by rw [hr]; decide) nofun
        (.inr (by simp [reach]))
    | false =>
      exact h.move .failed (by simp [advance]) (by rw [hr]; decide)
        (fun _ => by rw [hr]; decide) (.inl rfl)
  | publish hv => exact h.stay rfl (by simp [reach, hv])
  | record hv =>
    refine h.stay rfl ?_
    have hr : ch.reach = .authenticated := by simp [reach, hv]
    exact hr ▸ le_reach_recorded rfl
  | opens hv | arrives hv | surplus hv =>
    have hr : ch.verifier.isRecorded = true := by rw [hv]; rfl
    exact h.stay rfl (Nat.le_of_eq (congrArg _ (l.reach_recorded_eq hr rfl).symm))
  | wire hv | wired hv =>
    rw [hv] at hw
    cases hw

theorem CallMove.forward {i : Nat} {c c' : Call} (m : CallMove ch c ch' c')
    (hi : ch.calls[i]? = some c) (h : ch.Behind) (hc : ch.Accepts) (hw : c.wiring? = none)
    (l : Leaves ch { ch' with calls := ch'.calls.set i c' }) :
    Forward ch { ch' with calls := ch'.calls.set i c' } := by
  have hn := countP_set_add Call.isSpawning hi c'
  -- a call that starts accepting finds nothing begun
  have waits (hx : c.isConnecting = true) :
      ch.acceptor = .absent ∧ ch.unverified = true ∧ ch.verifier = .absent := by
    have ha := acceptor_absent hi hx hc.hands
    have hclaim := hc.claim
    rw [ha] at hclaim
    exact ⟨ha, hclaim.absent.2⟩
  cases m with
  | announceAccepting =>
    obtain ⟨-, hu, hv⟩ := waits rfl
    have hpos : 0 < (ch.calls.set i .connectSpawn).countP Call.isSpawning := by
      simp only [Call.isSpawning, Bool.toNat_true, Bool.toNat_false] at hn
      omega
    have hr : reach { ch.advance .accepting with calls := ch.calls.set i .connectSpawn } =
        .accepting := reach_accepting hv hu (.inr hpos)
    exact h.move _ rfl (reach_unverified_le hv hu) (fun hn => by cases hn)
      (.inr (hr ▸ Nat.le_refl _))
  | spawnAcceptor =>
    obtain ⟨-, hu, hv⟩ := waits rfl
    have hr : reach { ch with acceptor := .waiting, calls := ch.calls.set i (.returned (.ok ())) } =
        .accepting := reach_accepting hv hu (.inl (by simp))
    exact h.stay rfl (hr ▸ reach_unverified_le hv hu)
  | announceClosed =>
    exact h.move .closed rfl (by cases ch.reach <;> decide) (fun hn => by cases hn) (.inl rfl)
  | wire | wired => cases hw
  | _ => exact h.stay rfl (Nat.le_of_eq (congrArg _ (l.reach_eq rfl rfl rfl hn)).symm)

theorem Move.forward (m : Move ch a ch') (h : ch.Behind) (hi : ch.Inv) : Forward ch ch' := by
  cases hb : ch.binds? a with
  | some w => exact (m.binds hi.gathers hb).forward h hi.gathers
  | none =>
    have l := (m.bystander hi.gathers hi.accepts hb).2
    cases m with
    | acceptor m => exact m.forward h hi.accepts l
    | verifier m => exact m.forward h hb l
    | consumer m => cases m <;> exact h.stay rfl (Nat.le_refl _)
    | producer m => cases m <;> exact h.stay rfl (Nat.le_refl _)
    | relay m => cases m <;> exact h.stay rfl (Nat.le_refl _)
    | @begin r =>
      have hr : r.call.isSpawning = false := by cases r <;> rfl
      refine h.stay rfl (Nat.le_of_eq (congrArg _ (l.reach_eq rfl rfl rfl ?_)).symm)
      simp [hr]
    | @call i c c' ch' hcall m =>
      simp only [binds?, hcall, Option.bind_some] at hb
      exact m.forward hcall h hi.accepts hb l
    | _ => exact h.stay rfl (Nat.le_refl _)

/-! ## Every run -/

theorem Behind.run (h : ch.Behind) (hi : ch.Inv) (as : List Action) :
    (ch.run as).Behind ∧ ch.state.Precedes (ch.run as).state := by
  induction as generalizing ch with
  | nil => exact ⟨h, .refl _⟩
  | cons a as ih =>
    have hrun : ch.run (a :: as) = (ch.step a).run as := rfl
    rw [hrun]
    rcases ch.step_cases a with hs | m
    · rw [hs]
      exact ih h hi
    · have f := m.forward h hi
      obtain ⟨hb, hp⟩ := ih f.behind (hi.keeps m)
      exact ⟨hb, f.precedes.trans hp⟩

/-- In every run, whatever the order in which the calls of the owner, accepting, verification and
whoever binds the streams take their steps, the state goes forward only, from `listening` on. A
channel that has failed can only be closed, one that was closed stays so, and one that was ready
does not fail any more. -/
theorem state_precedes {m : Machine} {faults : Faults} {config : Config} {fresh : SessionId}
    {port : UInt16} {shape : Json.Shape} {start : Channel}
    (hstart : create m faults config fresh port shape = .ok start) (before after : List Action) :
    let earlier := (start.run before).state
    let later := (start.run (before ++ after)).state
    Lifecycle.listening.number ≤ earlier.number ∧ earlier.number ≤ later.number ∧
      (earlier = .failed → later = .failed ∨ later = .closed) ∧
      (earlier = .closed → later = .closed) ∧ (earlier = .ready → later ≠ .failed) := by
  intro earlier later
  have hi := Inv.of_create hstart
  obtain ⟨hstate, hbehind⟩ : start.state = .listening ∧ start.Behind := by
    obtain ⟨descriptor, codec, rfl⟩ := create_eq hstart
    exact ⟨rfl, .inr (Nat.le_refl _)⟩
  obtain ⟨hb, hfirst⟩ := hbehind.run hi before
  have hp : earlier.Precedes later := by
    have hrun : start.run (before ++ after) = (start.run before).run after := by simp [run]
    simp only [earlier, later, hrun]
    exact (hb.run (hi.run before) after).2
  refine ⟨hstate ▸ hfirst.1, hp.1, fun hf => ?_, fun hc => ?_, hp.2⟩
  · exact Lifecycle.Precedes.of_failed (hf ▸ hp)
  · exact Lifecycle.Precedes.of_closed (hc ▸ hp)

/-- The channel is ready before it is closed, and closed for good after it. -/
theorem state_precedes_of_exampleRun :
    let closing : List Action := .begin .close :: List.replicate 7 (.call 3)
    (exampleStart.run exampleRun).state = .ready ∧
      (exampleStart.run (exampleRun ++ closing)).state ≠ .failed ∧
      (exampleStart.run (exampleRun ++ closing ++ exampleSettling)).state = .closed := by
  intro closing
  have hready : (exampleStart.run exampleRun).isReady = true := by decide +kernel
  have hclosed : (exampleStart.run (exampleRun ++ closing)).state = .closed := by decide +kernel
  obtain ⟨-, -, -, -, hr⟩ := state_precedes create_exampleStart exampleRun closing
  obtain ⟨-, -, -, hc, -⟩ := state_precedes create_exampleStart (exampleRun ++ closing)
    exampleSettling
  exact ⟨of_decide_eq_true hready, hr (of_decide_eq_true hready), hc hclosed⟩

end Channel

end WorkerLink
