import WorkerLink.Proofs.Channel.Beside
import WorkerLink.Proofs.Channel.Exclusion

/-!
# Clients behind the first one

Whatever happens to a channel either has only to do with clients behind the first one (`isAside`) or
also happens to the channel that only the first one has come to. In the first case it does not show
in what serves the worker (`Mirrors.aside`), in the second one both channels take the same step
(`Mirrors.together`).
-/

namespace WorkerLink

/-- An action that leaves no bound on the descriptors. -/
def Action.plain : Action → Action
  | .setFaults f => .setFaults { f with freeDescriptors := none }
  | a => a

namespace Channel

variable {ch ch' X X' : Channel} {a : Action} {l : LinkId}

/-- Whether an action has only to do with clients behind the first one: it is one of theirs, or it
accepts connections when the first one has been accepted. A dropped channel releases what it held
only when they have all been turned away. -/
def isAside (ch : Channel) : Action → Bool
  | .task .acceptor => decide (ch.verifier ≠ .absent)
  | .task .reclaimer => true
  | .join => !ch.links.isEmpty
  | .send l _ | .finish l | .leave l | .reset l | .fetch l => decide (l ≠ 0)
  | _ => false

theorem Accepts.acceptor_ne_absent (h : ch.Accepts) (hv : ch.verifier ≠ .absent) :
    ch.acceptor ≠ .absent := by
  intro ha
  have hs := (h.claim.of_started hv).2.1
  rw [ha] at hs
  cases hs

theorem CallMove.reclaimed_eq {c c' : Call} (m : CallMove ch c ch' c') :
    ch'.reclaimed = ch.reclaimed := by
  cases m with
  | wire m | wired m => exact m.reclaimed_eq
  | _ => rfl

theorem WiringMove.dropped_eq {w w' : Wiring} (m : WiringMove ch w ch' w') :
    ch'.dropped = ch.dropped := by
  cases m <;> rfl

/-- Once a channel is dropped, no call of its owner is under way. -/
def Quits (ch : Channel) : Prop := ch.dropped = true → ∀ c ∈ ch.calls, c.isReturned = true

theorem Quits.call {i : Nat} {c c' : Call} (h : ch.Quits) (hx : ch.Excludes)
    (hi : ch.calls[i]? = some c) (m : CallMove ch c ch' c') :
    Quits { ch' with calls := ch'.calls.set i c' } := by
  intro hd d hm
  rw [m.calls_eq] at hm
  -- a call that goes on after the channel was dropped has returned
  have returned (hd : ch.dropped = true) : c.isReturned = true :=
    h hd c (List.mem_of_getElem? hi)
  cases m with
  | alreadyClosed | giveBack =>
    rcases hx.returned hi rfl d hm with rfl | hr
    · rfl
    · exact hr
  | returned =>
    rcases List.mem_or_eq_of_mem_set hm with hm | rfl
    · exact h hd d hm
    · rfl
  | wire m | wired m => cases returned (m.dropped_eq.symm.trans hd)
  | _ => cases returned hd

theorem Quits.keeps (h : ch.Quits) (hx : ch.Excludes) (m : Move ch a ch') : ch'.Quits := by
  cases m with
  | acceptor m => cases m <;> exact h
  | verifier m =>
    cases m with
    | wire _ m | wired _ m =>
      intro hd d hm
      exact h (m.dropped_eq.symm.trans hd) d (m.accepting.2.2.1 ▸ hm)
    | _ => exact h
  | consumer m => cases m <;> exact h
  | producer m => cases m <;> exact h
  | relay m => cases m <;> exact h
  | begin hr =>
    intro hd
    rw [canBegin, show ch.dropped = true from hd] at hr
    cases hr
  | call hi m => exact h.call hx hi m
  | _ => exact h

/-- What serves the worker has nothing left to do. -/
theorem IsOver.taskStep_eq (h : ch.IsOver) :
    ch.verifierStep = none ∧ ch.consumerStep = none ∧ ch.producerStep = none ∧
      (ch.verifier = .absent → ch.acceptorStep = none) := by
  obtain ⟨-, -, hv, hc, hp⟩ := h
  refine ⟨?_, by simp [consumerStep, hc], by simp [producerStep, hp], fun ha => ?_⟩
  · rcases hv with hv | hv | ⟨hv, -⟩ <;> simp [verifierStep, hv]
  · rw [ha] at hv
    rcases hv with hv | hv | ⟨-, hv | hv⟩
    · cases hv
    · cases hv
    · simp [acceptorStep, hv]
    · simp [acceptorStep, hv]

theorem IsOver.step_call (h : ch.IsOver) (i : Nat) : ch.stepCall i = ch := by
  unfold stepCall
  cases hi : ch.calls[i]? with
  | none => rfl
  | some c =>
    obtain ⟨hlt, hc⟩ := List.getElem?_eq_some_iff.1 hi
    have hr := h.2.1 c (List.mem_of_getElem? hi)
    cases c with
    | returned result =>
      have hset : ch.calls.set i (.returned result) = ch.calls := by
        rw [← hc, List.set_getElem_self]
      simp only [callStep, hset]
    | _ => cases hr

theorem released_eq_nil (links : List Link) (ls : List LinkId) :
    released links ls = [] ↔ links = [] := by
  rw [← List.length_eq_zero_iff, length_released, List.length_eq_zero_iff]

namespace Mirrors

/-! ## Accepting the first client -/

theorem verifier_eq (h : Mirrors ch X) : X.verifier = ch.verifier := by
  rw [h.eq]
  rfl

theorem acceptor_absent_iff (h : Mirrors ch X) (hc : ch.Accepts) (hX : X.Accepts) :
    X.acceptor = .absent ↔ ch.acceptor = .absent := by
  by_cases hv : ch.verifier = .absent
  · rw [(h.accepting hv).1]
  · exact iff_of_false (hX.acceptor_ne_absent (h.verifier_eq ▸ hv)) (hc.acceptor_ne_absent hv)

theorem listener_owner_iff (h : Mirrors ch X) (hc : ch.Accepts) (hX : X.Accepts) :
    X.listener = .owner ↔ ch.listener = .owner := by
  by_cases hv : ch.verifier = .absent
  · rw [(h.accepting hv).2.1]
  · exact iff_of_false (hX.listener_ne_owner (hX.acceptor_ne_absent (h.verifier_eq ▸ hv)))
      (hc.listener_ne_owner (hc.acceptor_ne_absent hv))

/-- Before verification has started, the first client is among those whom nobody has accepted in one
of the channels if it is in the other. -/
theorem mem_backlog_iff (h : Mirrors ch X) (hX : X.Accepts) (hv : ch.verifier = .absent) :
    0 ∈ X.backlog ↔ 0 ∈ ch.backlog := by
  obtain ⟨ha, -, ⟨late, hb⟩, he⟩ := h.accepting hv
  refine ⟨fun hm => ?_, fun hm => hb ▸ List.mem_append_left _ hm⟩
  have hslot : X.slot = ch.slot := by rw [h.eq]; rfl
  rw [← hb, List.mem_append] at hm
  refine hm.resolve_right fun hm => ?_
  -- nobody stands before the first client, so those behind it are not the first one
  have horder : (ch.arrivals ++ late).Pairwise (· < ·) := by
    have horder := hX.order
    rwa [arrivals, ha, hslot, ← hb, ← List.append_assoc] at horder
  cases harr : ch.arrivals with
  | nil =>
    rw [← hb, List.append_eq_nil_iff] at he
    rw [(he harr).1.2] at hm
    cases hm
  | cons l ls =>
    rw [harr] at horder
    exact Nat.not_lt_zero _ (List.rel_of_pairwise_cons horder (List.mem_append_right _ hm))

theorem stopListening (h : Mirrors ch X) (hc : ch.Accepts) (hX : X.Accepts)
    (hr : X.reclaimed = false) (hv : ch.verifier = .absent) :
    Mirrors ch.stopListening X.stopListening := by
  have hmem := h.mem_backlog_iff hX hv
  have hlink :
      (released X.links X.backlog).getD 0 {} = (released ch.links ch.backlog).getD 0 {} := by
    by_cases hm : 0 ∈ ch.backlog
    · have before {y : Channel} (hy : y.Accepts) (hm : 0 ∈ y.backlog) :
          y.backlog.Nodup ∧ 0 < y.links.length := by
        have hn := hy.nodup
        simp only [arrivals, List.nodup_append] at hn
        exact ⟨hn.2.1, hy.known 0 (by simp [arrivals, hm])⟩
      have hch := before hc hm
      have hx := before hX (hmem.2 hm)
      rw [getD_released_of_mem hx.1 (hmem.2 hm) hx.2, getD_released_of_mem hch.1 hm hch.2]
      exact congrArg Link.release (h.worker hr).1
    · rw [getD_released_of_notMem hm, getD_released_of_notMem fun hx => hm (hmem.1 hx)]
      exact (h.worker hr).1
  obtain ⟨r, rfl⟩ := h.exists_beside
  rw [stopListening_eq, stopListening_eq]
  exact
    { eq := rfl
      single := by rw [length_released]; exact h.single
      present := by
        rw [released_eq_nil, released_eq_nil]
        exact h.present
      unbounded := (h.closeDescriptor hr).unbounded
      accepting := fun _ => ⟨(h.accepting hv).1, rfl, List.prefix_rfl, fun _ => ⟨rfl, .inl rfl⟩⟩
      worker := fun _ => ⟨hlink, (h.worker hr).2⟩
      written := congrArg (·.outbound.written) hlink
      kept := .inl hr }

theorem stopAccepting (h : Mirrors ch X) (hc : ch.Accepts) (hX : X.Accepts)
    (hr : X.reclaimed = false) (hv : ch.verifier = .absent) :
    Mirrors { ch.stopListening with acceptor := .stopped }
      { X.stopListening with acceptor := .stopped } := by
  have hstop := h.stopListening hc hX hr hv
  rw [stopListening_eq, stopListening_eq] at hstop ⊢
  obtain ⟨r, rfl⟩ := h.exists_beside
  exact
    { hstop with
      eq := rfl
      accepting := fun _ => ⟨rfl, rfl, List.prefix_rfl, fun _ => ⟨rfl, .inl rfl⟩⟩
      kept := .inl hr }

/-- Accepting comes to another point, with the same clients on their way. -/
theorem acceptor (h : Mirrors ch X) (hr : X.reclaimed = false) (b : Acceptor)
    (hb : arrivals { ch with acceptor := b } = [] → ch.arrivals = []) :
    Mirrors { ch with acceptor := b } { X with acceptor := b } := by
  obtain ⟨r, rfl⟩ := h.exists_beside
  exact
    { h with
      eq := rfl
      accepting := fun hv => by
        obtain ⟨-, hl, hx, he⟩ := h.accepting hv
        exact ⟨rfl, hl, hx, fun hn => he (hb hn)⟩
      kept := .inl hr }

/-- As long as nobody has been accepted, the same client is the next one. -/
theorem head_backlog (h : Mirrors ch X) (hc : ch.Accepts) (hv : ch.verifier = .absent)
    (hfree : ch.acceptor.isFree = true) (ht : ch.acceptor.taken? = none) :
    X.backlog.head? = ch.backlog.head? := by
  obtain ⟨-, -, hb, he⟩ := h.accepting hv
  have hclaim := hc.claim
  rw [hv] at hclaim
  obtain ⟨hs, -⟩ := hclaim.unclaimed_of_absent hfree
  cases hq : ch.backlog with
  | nil => rw [(he (by simp [arrivals, hs, ht, hq])).1]
  | cons l rest =>
    obtain ⟨late, hb⟩ := hb
    rw [← hb, hq]
    rfl

theorem acceptorStep (h : Mirrors ch X) (hc : ch.Accepts) (hX : X.Accepts)
    (hr : X.reclaimed = false) (hd : X.canOpen = true) (hv : ch.verifier = .absent) :
    Mirrors (ch.acceptorStep.getD ch) (X.acceptorStep.getD X) := by
  have ho := h.canOpen
  have hopen : ch.faults.freeDescriptors.map (· - 1) = none := by rw [h.unbounded]; rfl
  have hstop := h.stopAccepting hc hX hr hv
  have hclaim := hc.claim
  obtain ⟨ha, hl, hb, he⟩ := h.accepting hv
  rw [hv] at hclaim
  unfold Channel.acceptorStep
  rw [ha]
  cases hacc : ch.acceptor with
  | absent | stopped => exact h
  | waiting =>
    have hempty : X.backlog.isEmpty = ch.backlog.isEmpty := by
      rw [Bool.eq_iff_iff, List.isEmpty_iff, List.isEmpty_iff, ← List.head?_eq_none_iff,
        ← List.head?_eq_none_iff,
        h.head_backlog hc hv (by rw [hacc]; rfl) (by rw [hacc]; rfl)]
    obtain ⟨r, rfl⟩ := h.exists_beside
    simp only [beside_acceptorAborted, hempty]
    split
    · exact hstop
    · split
      · exact h
      · exact h.acceptor hr .polling (by simp [arrivals, hacc, Acceptor.taken?])
  | polling =>
    have hresult : X.acceptResult? = ch.acceptResult? := by
      simp only [acceptResult?, ho, hd,
        h.head_backlog hc hv (by rw [hacc]; rfl) (by rw [hacc]; rfl)]
    simp only [hresult]
    rcases ch.acceptResult_cases with ⟨hn, -⟩ | ⟨-, hr'⟩ | ⟨l, rest, hq, hr'⟩
    · rw [ho] at hn
      cases hn
    · simp only [hr']
      exact h.acceptor hr .waiting (by simp [arrivals, hacc, Acceptor.taken?])
    · obtain ⟨late, hb⟩ := hb
      obtain ⟨r, rfl⟩ := h.exists_beside
      simp only [hr', receive]
      exact
        { h with
          eq := rfl
          unbounded := hopen
          accepting := fun _ => ⟨rfl, hl, ⟨late, by rw [← hb, hq]; simp⟩,
            by simp [arrivals, Acceptor.taken?]⟩
          kept := .inl hr }
  | taken l =>
    obtain ⟨hs, -⟩ := hclaim.unclaimed_of_absent (by rw [hacc]; rfl)
    obtain ⟨r, rfl⟩ := h.exists_beside
    simp only [beside_slot, hs, Option.isSome_none, Bool.false_eq_true, if_false]
    exact
      { h with
        eq := rfl
        accepting := fun _ => ⟨rfl, hl, hb, by simp [arrivals]⟩
        kept := .inl hr }
  | claimed l =>
    obtain ⟨r, rfl⟩ := h.exists_beside
    simp only [beside_unverified]
    split
    · exact
        { h with
          eq := rfl
          accepting := fun _ => ⟨rfl, hl, hb, fun hn => he (by
            simpa [arrivals, hacc, Acceptor.taken?, advance] using hn)⟩
          kept := .inl hr }
    · exact h.acceptor hr .polling (by simp [arrivals, hacc, Acceptor.taken?])
  | announcing l =>
    obtain ⟨r, rfl⟩ := h.exists_beside
    exact
      { h with
        eq := rfl
        accepting := fun _ => ⟨rfl, hl, hb, fun hn => he (by
          simpa [arrivals, hacc, Acceptor.taken?] using hn)⟩
        kept := .inl hr }
  | verifying l =>
    simp only [ho, hd, if_true]
    obtain ⟨r, rfl⟩ := h.exists_beside
    exact
      { h with
        eq := rfl
        unbounded := hopen
        accepting := fun hn => by cases hn
        kept := .inl hr }
  | failing reason =>
    obtain ⟨r, rfl⟩ := h.exists_beside
    exact
      { h with
        eq := rfl
        accepting := fun _ => ⟨rfl, hl, hb, fun hn => he (by
          simpa [arrivals, hacc, Acceptor.taken?, advance] using hn)⟩
        kept := .inl hr }
  | reporting reason =>
    obtain ⟨r, rfl⟩ := h.exists_beside
    rw [stopListening_eq, stopListening_eq] at hstop ⊢
    exact { hstop with eq := rfl, kept := .inl hr }

/-! ## Calls -/

theorem finishClosing (h : Mirrors ch X) (hr : X.reclaimed = false) (dropping : Bool)
    (releases : List (Except IoError Unit)) :
    (X.finishClosing dropping releases).2 = (ch.finishClosing dropping releases).2 ∧
      Mirrors (ch.finishClosing dropping releases).1 (X.finishClosing dropping releases).1 := by
  obtain ⟨r, rfl⟩ := h.exists_beside
  unfold Channel.finishClosing
  cases CloseError.aggregate releases <;> cases dropping <;>
    exact ⟨rfl, { h with eq := rfl, kept := .inl hr }⟩

theorem shutWorker (h : Mirrors ch X) (hc : ch.Accepts) (hr : X.reclaimed = false) :
    X.shutWorker.1 = ch.shutWorker.1 ∧ Mirrors ch.shutWorker.2 X.shutWorker.2 := by
  obtain ⟨r, rfl⟩ := h.exists_beside
  simp only [Channel.shutWorker, beside_slot, beside_faults_shutdown]
  cases hs : ch.slot with
  | none => exact ⟨rfl, h⟩
  | some l =>
    obtain rfl := h.eq_zero hc hs
    cases ch.faults.shutdown with
    | none => exact ⟨rfl, h.onLink (.inl hr)⟩
    | some code => exact ⟨rfl, h⟩

theorem releaseListener (h : Mirrors ch X) (hc : ch.Accepts) (hX : X.Accepts)
    (hr : X.reclaimed = false) :
    X.releaseListener.1 = ch.releaseListener.1 ∧
      Mirrors ch.releaseListener.2 X.releaseListener.2 := by
  have hiff := h.listener_owner_iff hc hX
  have habort : (X.acceptor != .absent) = (ch.acceptor != .absent) := by
    rw [bne, bne, Bool.not_inj_iff, Bool.eq_iff_iff, beq_iff_eq, beq_iff_eq]
    exact h.acceptor_absent_iff hc hX
  by_cases ho : ch.listener = .owner
  · have hv : ch.verifier = .absent := by
      by_contra hv
      exact hc.listener_ne_owner (hc.acceptor_ne_absent hv) ho
    have hstop := h.stopListening hc hX hr hv
    have hresult : X.releaseListener.1 = ch.releaseListener.1 := by
      have hfaults : X.faults.release = ch.faults.release := by rw [h.eq]; rfl
      simp only [Channel.releaseListener, ho, hiff.2 ho, if_true, hfaults]
    refine ⟨hresult, ?_⟩
    rw [releaseListener_owner ho, releaseListener_owner (hiff.2 ho), habort]
    rw [stopListening_eq, stopListening_eq] at hstop
    obtain ⟨r, rfl⟩ := h.exists_beside
    exact { hstop with eq := rfl, kept := .inl hr }
  · have ho' : X.listener ≠ .owner := fun hx => ho (hiff.1 hx)
    rw [releaseListener_other ho, releaseListener_other ho', habort]
    obtain ⟨r, rfl⟩ := h.exists_beside
    exact ⟨rfl, { h with eq := rfl, kept := .inl hr }⟩

theorem closeStep (h : Mirrors ch X) (hc : ch.Accepts) (hX : X.Accepts) (hr : X.reclaimed = false)
    (dropping : Bool) (point : Closing) :
    (X.callStep (.close dropping point)).2 = (ch.callStep (.close dropping point)).2 ∧
      Mirrors (ch.callStep (.close dropping point)).1 (X.callStep (.close dropping point)).1 := by
  cases point with
  | start =>
    have hclosed : X.closed = ch.closed := by rw [h.eq]; rfl
    have hfinish := h.finishClosing hr dropping []
    simp only [callStep, hclosed]
    split
    · exact hfinish
    · obtain ⟨r, rfl⟩ := h.exists_beside
      exact ⟨rfl, { h with eq := rfl, kept := .inl hr }⟩
  | shutWorker =>
    obtain ⟨he, h'⟩ := h.shutWorker hc hr
    exact ⟨by rw [callStep, callStep, he], h'⟩
  | releaseListener worker =>
    obtain ⟨he, h'⟩ := h.releaseListener hc hX hr
    exact ⟨by rw [callStep, callStep, he], h'⟩
  | giveBack releases =>
    have h' : Mirrors { ch with countdown := ch.countdown.discard }
        { X with countdown := X.countdown.discard } := by
      obtain ⟨r, rfl⟩ := h.exists_beside
      exact { h with eq := rfl, kept := .inl hr }
    exact h'.finishClosing hr dropping releases
  | announce | abortStreams | abortConsole =>
    obtain ⟨r, rfl⟩ := h.exists_beside
    exact ⟨rfl, { h with eq := rfl, kept := .inl hr }⟩

theorem callStep (h : Mirrors ch X) (hc : ch.Accepts) (hX : X.Accepts) (hr : X.reclaimed = false)
    (hd : X.canOpen = true) {i : Nat} {c : Call} (hi : ch.calls[i]? = some c) :
    (X.callStep c).2 = (ch.callStep c).2 ∧ Mirrors (ch.callStep c).1 (X.callStep c).1 := by
  cases c with
  | close dropping point => exact h.closeStep hc hX hr dropping point
  | arrive =>
    obtain ⟨ho, h'⟩ := h.arrive hr
    exact ⟨by simp only [Channel.callStep, ho], h'⟩
  | wire w =>
    obtain ⟨ho, h'⟩ := h.wire hr hd w
    exact ⟨by simp only [Channel.callStep, ho], h'⟩
  | connectListener =>
    have hiff := h.listener_owner_iff hc hX
    simp only [Channel.callStep, hiff]
    split
    · rename_i ho
      obtain ⟨r, rfl⟩ := h.exists_beside
      refine ⟨rfl, { h with eq := rfl, accepting := fun hv => ?_, kept := .inl hr }⟩
      obtain ⟨ha, -, hb, he⟩ := h.accepting hv
      refine ⟨ha, rfl, hb, fun hn => ⟨(he hn).1, .inr ((he hn).2.resolve_left ?_)⟩⟩
      rw [ho]
      intro hn
      cases hn
    · exact ⟨rfl, h⟩
  | connectSpawn =>
    refine ⟨rfl, h.acceptor hr .waiting ?_⟩
    simp [arrivals, acceptor_absent hi rfl hc.hands, Acceptor.taken?]
  | bindCommands q =>
    have hrefuse := h.onQueue q CommandQueue.close
    obtain ⟨r, rfl⟩ := h.exists_beside
    simp only [Channel.callStep, beside_closed]
    split
    · exact ⟨rfl, hrefuse⟩
    · exact ⟨rfl, h⟩
  | setCommands q =>
    have hrefuse := h.onQueue q CommandQueue.close
    obtain ⟨r, rfl⟩ := h.exists_beside
    simp only [Channel.callStep, beside_commands]
    split
    · exact ⟨rfl, hrefuse⟩
    · exact ⟨rfl, { h with eq := rfl, kept := .inl hr }⟩
  | setEvents output =>
    obtain ⟨r, rfl⟩ := h.exists_beside
    simp only [Channel.callStep, beside_handler]
    split
    · exact ⟨rfl, h⟩
    · exact ⟨rfl, { h with eq := rfl, kept := .inl hr }⟩
  | connect | bindEvents | disable | returned =>
    obtain ⟨r, rfl⟩ := h.exists_beside
    exact ⟨rfl, h⟩
  | connectAnnounce | reserve | relayOutput | cancel =>
    obtain ⟨r, rfl⟩ := h.exists_beside
    exact ⟨rfl, { h with eq := rfl, kept := .inl hr }⟩

/-! ## Whatever else happens to both -/

theorem begin (h : Mirrors ch X) (q : Request) : Mirrors (ch.begin q) (X.begin q) := by
  obtain ⟨r, rfl⟩ := h.exists_beside
  have hbegin : (ch.beside r).canBegin q.call = ch.canBegin q.call := rfl
  unfold Channel.begin
  rw [hbegin]
  split
  · rename_i hb
    refine { h with eq := rfl, kept := h.kept.imp_right fun ho => ?_ }
    rw [canBegin, ho.1] at hb
    cases hb
  · exact h

theorem stepCall (h : Mirrors ch X) (hc : ch.Accepts) (hX : X.Accepts) (hr : X.reclaimed = false)
    (hd : X.canOpen = true) (i : Nat) : Mirrors (ch.stepCall i) (X.stepCall i) := by
  have hcalls : X.calls = ch.calls := by rw [h.eq]; rfl
  unfold Channel.stepCall
  rw [hcalls]
  cases hi : ch.calls[i]? with
  | none => exact h
  | some c =>
    obtain ⟨he, h'⟩ := h.callStep hc hX hr hd hi
    have hr' : (X.callStep c).1.reclaimed = false := (X.callStep_move c).reclaimed_eq.trans hr
    simp only [he]
    generalize (X.callStep c).1 = y at *
    obtain ⟨r, rfl⟩ := h'.exists_beside
    exact { h' with eq := rfl, kept := .inl hr' }

/-- The first client comes. -/
theorem join (h : Mirrors ch X) (hc : ch.Accepts) (hX : X.Accepts) (hn : X.links = []) :
    Mirrors ch.join X.join := by
  have hn' := h.present.1 hn
  have hv : ch.verifier = .absent := by
    by_contra hv
    obtain ⟨l, hs⟩ := hc.claim.isSome hv
    have hlt := hc.slot_lt hs
    simp [hn'] at hlt
  have nobody {y : Channel} (hy : y.Accepts) (hl : y.links = []) : y.backlog = [] := by
    refine List.eq_nil_iff_forall_not_mem.2 fun l hl => ?_
    have := hy.known l (by simp [arrivals, hl])
    simp_all
  obtain ⟨ha, hl, -⟩ := h.accepting hv
  have hb := nobody hc hn'
  have hb' := nobody hX hn
  have hp : ch.backlog ++ [ch.links.length] <+: X.backlog ++ [X.links.length] := by
    simp [hb, hb', hn, hn']
  have hlink (y : Channel) : (y.links ++ [({} : Link)]).getD 0 {} = y.link 0 :=
    getD_append_default ..
  obtain ⟨r, rfl⟩ := h.exists_beside
  unfold Channel.join
  rw [hl]
  split
  · exact h
  · exact
      { h with
        eq := rfl
        single := by simp [hn']
        present := by simp
        accepting := fun _ => ⟨ha, rfl, hp, by simp [arrivals]⟩
        worker := fun hr =>
          ⟨(hlink _).trans ((h.worker hr).1.trans (hlink ch).symm), (h.worker hr).2⟩
        written := by
          have hw (y : Channel) := congrArg (·.outbound.written) (hlink y)
          exact (hw _).trans (h.written.trans (hw ch).symm) }

theorem client (h : Mirrors ch X) {f : Link → Link} (ha : a.client? = some (0, f)) :
    Mirrors (ch.onLink 0 f) (X.onLink 0 f) :=
  h.onLink (.inr fun x => (Action.byClient ha x).written)

/-- What serves the worker has nothing left to do in either channel. -/
theorem isOver (h : Mirrors ch X) (hr : X.reclaimed = true) : ch.IsOver ∧ X.IsOver := by
  have ho := h.kept.resolve_left (by simp [hr])
  refine ⟨ho, ?_⟩
  obtain ⟨hd, hc, hv, hcons, hprod⟩ := ho
  have hacc := h.accepting
  obtain ⟨r, rfl⟩ := h.exists_beside
  refine ⟨hd, hc, ?_, hcons, hprod⟩
  rcases hv with hv | hv | ⟨hv, ha⟩
  · exact .inl hv
  · exact .inr (.inl hv)
  · exact .inr (.inr ⟨hv, (hacc hv).1 ▸ ha⟩)

/-- An action that has to do with the first client or with the owner happens to both channels. -/
theorem together (h : Mirrors ch X) (hc : ch.Accepts) (hX : X.Accepts) (hd : X.canOpen = true)
    (ha : X.isAside a = false) : Mirrors (ch.step a.plain) (X.step a) := by
  have hfirst {l : LinkId} (hl : decide (l ≠ 0) = false) : l = 0 := by simpa using hl
  cases a with
  | task t =>
    have idle (hr : X.reclaimed = true) := And.intro (h.isOver hr).1.taskStep_eq
      (h.isOver hr).2.taskStep_eq
    cases t with
    | acceptor =>
      have hv : X.verifier = .absent := by simpa [isAside] using ha
      have hv' : ch.verifier = .absent := h.verifier_eq ▸ hv
      cases hr : X.reclaimed with
      | false => exact h.acceptorStep hc hX hr hd hv'
      | true =>
        obtain ⟨⟨-, -, -, hch⟩, -, -, -, hx⟩ := idle hr
        simpa [Action.plain, step, taskStep, hch hv', hx hv] using h
    | verifier =>
      cases hr : X.reclaimed with
      | false => exact h.verifierStep hc hr hd
      | true =>
        obtain ⟨⟨hch, -⟩, hx, -⟩ := idle hr
        simpa [Action.plain, step, taskStep, hch, hx] using h
    | consumer =>
      cases hr : X.reclaimed with
      | false => exact h.consumerStep hc hr
      | true =>
        obtain ⟨⟨-, hch, -⟩, -, hx, -⟩ := idle hr
        simpa [Action.plain, step, taskStep, hch, hx] using h
    | producer =>
      cases hr : X.reclaimed with
      | false => exact h.producerStep hc hr
      | true =>
        obtain ⟨⟨-, -, hch, -⟩, -, -, hx, -⟩ := idle hr
        simpa [Action.plain, step, taskStep, hch, hx] using h
    | relay => exact h.relayStep
    | reclaimer => cases ha
  | begin q => exact h.begin q
  | call i =>
    cases hr : X.reclaimed with
    | false => exact h.stepCall hc hX hr hd i
    | true =>
      obtain ⟨hch, hx⟩ := h.isOver hr
      simpa [Action.plain, step, hch.step_call, hx.step_call] using h
  | join => exact h.join hc hX (by simpa [isAside] using ha)
  | send l b =>
    obtain rfl := hfirst ha
    exact h.client (a := .send 0 b) rfl
  | finish l =>
    obtain rfl := hfirst ha
    exact h.client (a := .finish 0) rfl
  | leave l =>
    obtain rfl := hfirst ha
    exact h.client (a := .leave 0) rfl
  | reset l =>
    obtain rfl := hfirst ha
    exact h.client (a := .reset 0) rfl
  | fetch l =>
    obtain rfl := hfirst ha
    exact h.client (a := .fetch 0) rfl
  | makeQueue =>
    obtain ⟨r, rfl⟩ := h.exists_beside
    exact
      { h with
        eq := rfl
        worker := fun hr =>
          ⟨(h.worker hr).1, congrArg (· ++ [({} : CommandQueue Payload)]) (h.worker hr).2⟩ }
  | command q p => exact h.onQueue q _
  | dropSender q => exact h.onQueue q _
  | print b =>
    obtain ⟨r, rfl⟩ := h.exists_beside
    simp only [Action.plain, step, beside_output]
    split
    · exact { h with eq := rfl }
    · exact h
  | endOutput e =>
    obtain ⟨r, rfl⟩ := h.exists_beside
    exact { h with eq := rfl }
  | setFaults f =>
    obtain ⟨r, rfl⟩ := h.exists_beside
    exact { h with eq := rfl, unbounded := rfl }

/-! ## What happens to the others only -/

/-- The second channel changes where that does not show of the worker. -/
theorem of_frame (h : Mirrors ch X) (he : X' = ch.beside X') (hn : X'.links = [] ↔ X.links = [])
    (hl : X'.link 0 = X.link 0) (hq : X'.queues = X.queues) (hr : X'.reclaimed = X.reclaimed)
    (ha : ch.verifier = .absent → Queued ch X') : Mirrors ch X' where
  eq := he
  single := h.single
  present := hn.trans h.present
  unbounded := h.unbounded
  accepting := ha
  worker hx := by
    rw [hl, hq]
    exact h.worker (hr ▸ hx)
  written := by rw [hl, h.written]
  kept := hr ▸ h.kept

/-- Once the worker is being verified, accepting has only to do with others. -/
theorem acceptsOthers (h : Mirrors ch X) (hc : ch.Accepts) (hX : X.Accepts) (hd : X.canOpen = true)
    (hv : ch.verifier ≠ .absent) (m : AcceptorMove X X') : Mirrors ch X' := by
  have hnone {P : Prop} (hx : ch.verifier = .absent) : P := (hv hx).elim
  obtain ⟨l, hs⟩ := hc.claim.isSome hv
  obtain rfl := h.eq_zero hc hs
  have hslot : X.slot = some 0 := by rw [h.eq]; exact hs
  obtain ⟨hfree, hsound, hu⟩ := hX.claim.of_started (h.verifier_eq ▸ hv)
  have hnodup : (0 :: (X.acceptor.taken?.toList ++ X.backlog)).Nodup := by
    simpa [arrivals, hslot] using hX.nodup
  obtain ⟨htaken, hbacklog⟩ := not_or.1 (mt List.mem_append.2 (List.nodup_cons.1 hnodup).1)
  have hreleased : (released X.links X.backlog).getD 0 {} = X.links.getD 0 {} :=
    getD_released_of_notMem hbacklog
  cases m with
  | abort | giveUp =>
    obtain ⟨r, rfl⟩ := h.exists_beside
    exact h.of_frame rfl (released_eq_nil ..) hreleased rfl rfl hnone
  | wake | wait | take =>
    obtain ⟨r, rfl⟩ := h.exists_beside
    exact h.of_frame rfl Iff.rfl rfl rfl rfl hnone
  | refuse _ ho =>
    rw [hd] at ho
    cases ho
  | turnAway ha =>
    rename_i l x _
    have hl : l ≠ 0 := by
      rintro rfl
      exact htaken (by simp [ha, Acceptor.taken?])
    obtain ⟨r, rfl⟩ := h.exists_beside
    refine h.of_frame rfl ?_ ?_ rfl rfl hnone
    · simp
    · exact (link_onLink ..).trans (if_neg fun hx => hl hx.1)
  | claim _ hn =>
    rw [hslot] at hn
    cases hn
  | accept ha | skip ha | announce ha | verify ha | verifyBlind ha =>
    rw [ha] at hfree
    cases hfree
  | fail ha | report ha =>
    rw [ha] at hsound
    cases hsound

/-- A dropped channel that nobody uses any more has nothing left that serves the worker. -/
theorem isOver_of_isUnused (h : Mirrors ch X) (hq : ch.Quits) (hd : X.dropped = true)
    (hu : X.isUnused = true) : ch.IsOver := by
  have hacc := h.accepting
  obtain ⟨r, rfl⟩ := h.exists_beside
  simp only [isUnused, Bool.and_eq_true, Bool.not_eq_true', beside_verifier, beside_consumer,
    beside_producer] at hu
  obtain ⟨⟨⟨ha, hv⟩, hcons⟩, hprod⟩ := hu
  refine ⟨hd, hq hd, ?_, hcons, hprod⟩
  cases hv' : ch.verifier with
  | finished => exact .inl rfl
  | dropped => exact .inr (.inl rfl)
  | absent =>
    refine .inr (.inr ⟨rfl, ?_⟩)
    rw [(hacc hv').1] at ha
    cases hx : ch.acceptor with
    | absent => exact .inl rfl
    | stopped => exact .inr rfl
    | _ => simp [hx] at ha
  | _ => simp [hv'] at hv

/-- What a dropped channel held is released when nothing serves the worker any more. -/
theorem reclaim (h : Mirrors ch X) (hc : ch.Accepts) (hq : ch.Quits) (hd : X.dropped = true)
    (hu : X.isUnused = true) : Mirrors ch { X with
      links := X.slot.elim X.links fun l => X.links.modify l Link.release
      queues := X.commands.elim X.queues fun q => X.queues.modify q CommandQueue.close
      reclaimed := true } := by
  have hover := h.isOver_of_isUnused hq hd hu
  have hslot : X.slot = ch.slot := by rw [h.eq]; rfl
  have hlinks :
      (X.slot.elim X.links fun l => X.links.modify l Link.release) = [] ↔ X.links = [] := by
    cases X.slot <;> simp
  have hwritten :
      ((X.slot.elim X.links fun l => X.links.modify l Link.release).getD 0 {}).outbound.written =
        (X.link 0).outbound.written := by
    rw [hslot]
    cases hs : ch.slot with
    | none => rfl
    | some l =>
      obtain rfl := h.eq_zero hc hs
      change ((X.onLink 0 Link.release).link 0).outbound.written = _
      rw [link_onLink]
      split
      · exact Stream.written_finish ..
      · rfl
  obtain ⟨r, rfl⟩ := h.exists_beside
  exact
    { h with
      eq := rfl
      present := hlinks.trans h.present
      worker := fun hx => by cases hx
      written := hwritten.trans h.written
      kept := .inr hover }

/-- Another client comes behind the first one. -/
theorem joinLate (h : Mirrors ch X) (hn : X.links ≠ []) (hl : X.listener ≠ .nobody) :
    Mirrors ch { X with
      links := X.links ++ [{}], backlog := X.backlog ++ [X.links.length] } := by
  have hacc := h.accepting
  have hn' : ch.links ≠ [] := fun hx => hn (h.present.2 hx)
  obtain ⟨r, rfl⟩ := h.exists_beside
  refine h.of_frame rfl (iff_of_false (by simp) hn) (getD_append_default ..) rfl rfl fun hv => ?_
  obtain ⟨ha, hx, hb, he⟩ := hacc hv
  refine ⟨ha, hx, hb.trans (List.prefix_append ..), fun hempty => ?_⟩
  rcases (he hempty).2 with hx' | hx'
  · exact (hl (hx.trans hx')).elim
  · exact (hn' hx').elim

/-- An action that has only to do with clients behind the first one does not show. -/
theorem aside (h : Mirrors ch X) (hc : ch.Accepts) (hX : X.Accepts) (hq : ch.Quits)
    (hd : X.canOpen = true) (ha : X.isAside a = true) : Mirrors ch (X.step a) := by
  have hother {l : LinkId} (f : Link → Link) (hl : decide (l ≠ 0) = true) :
      Mirrors ch (X.onLink l f) := by
    have hlink : (X.onLink l f).link 0 = X.link 0 := by
      rw [link_onLink, if_neg fun hx => of_decide_eq_true hl hx.1]
    obtain ⟨r, rfl⟩ := h.exists_beside
    exact h.of_frame rfl (by simp [Channel.onLink]) hlink rfl rfl h.accepting
  cases a with
  | task t =>
    cases t with
    | acceptor =>
      have hv : ch.verifier ≠ .absent := h.verifier_eq ▸ of_decide_eq_true ha
      rcases X.step_cases (.task .acceptor) with hs | m
      · rwa [hs]
      · generalize X.step (.task .acceptor) = X' at m
        cases m with
        | acceptor m => exact h.acceptsOthers hc hX hd hv m
        | client hx => cases hx
    | reclaimer =>
      rcases X.step_cases (.task .reclaimer) with hs | m
      · rwa [hs]
      · generalize X.step (.task .reclaimer) = X' at m
        cases m with
        | reclaimer hd hu => exact h.reclaim hc hq hd hu
        | client hx => cases hx
    | _ => cases ha
  | join =>
    have hn : X.links ≠ [] := by simpa [isAside] using ha
    rcases X.step_cases .join with hs | m
    · rwa [hs]
    · generalize X.step .join = X' at m
      cases m with
      | join hl => exact h.joinLate hn hl
      | client hx => cases hx
  | send l b => exact hother _ ha
  | finish l => exact hother _ ha
  | leave l => exact hother _ ha
  | reset l => exact hother _ ha
  | fetch l => exact hother _ ha
  | _ => cases ha

end Mirrors

end Channel

end WorkerLink
