import Mathlib.Logic.Relation
import WorkerLink.Proofs.Channel.Apart
import WorkerLink.Proofs.Channel.Exclusion

/-!
# A run without one of its calls

`Channel.without` leaves a call of the owner out of a run. If no step of the call touched the
channel (`Idles`), the run without it ends in the same channel, but for the call itself and the
command queue that was given with it (`Omits.run`).
-/

namespace WorkerLink

/-- Whether an action is a client's, or has to do with the worker's output or the operating
system. -/
def Action.isOutside : Action → Bool
  | .task _ | .begin _ | .call _ | .makeQueue | .command .. | .dropSender _ => false
  | _ => true

/-- An action of a run in which one more call was begun. -/
def Action.beyond (i : Nat) : Action → Action
  | .call j => .call (indexBeyond i j)
  | a => a

namespace Channel

variable {ch ch' X : Channel} {a : Action} {c : Call} {i j : Nat} {k q : QueueId}

/-! ## Leaving a call out -/

/-- What is left of an action when a call is left out. What the owner could not begin is left out
too, since it may have been kept waiting by that call. -/
def kept (X : Channel) (i : Nat) : Action → Option Action
  | .begin r => if X.canBegin r.call then some (.begin r) else none
  | .call j => if j = i then none else some (.call (indexWithout i j))
  | a => some a

/-- A run without a call that is under way. -/
def without (X : Channel) (i : Nat) : List Action → List Action
  | [] => []
  | a :: as => (X.kept i a).toList ++ (X.step a).without i as

/-- The next step of a call leaves the channel alone, unless it refuses the queue it was given. -/
def Spares (X : Channel) (c : Call) : Prop :=
  (X.callStep c).1 = X ∨ ∃ q, c.queue? = some q ∧ (X.callStep c).1 = X.refuseQueue q

/-- The second run is the first one with the steps of a call woven in, which was begun before. The
owner begins no call that has to wait for it, and the calls that are begun later are counted on. -/
inductive Weaves (i : Nat) : Channel → List Action → List Action → Prop where
  | nil {X : Channel} : Weaves i X [] []
  | own {X : Channel} {as bs : List Action} (h : Weaves i (X.step (.call i)) as bs) :
    Weaves i X as (.call i :: bs)
  | other {X : Channel} {a : Action} {as bs : List Action}
      (hr : ∀ r c, a = .begin r → X.calls[i]? = some c → c.isReturned = true ∨
        r.call.isExclusive = false ∧ c.isExclusive = false)
      (h : Weaves i (X.step (a.beyond i)) as bs) : Weaves i X (a :: as) (a.beyond i :: bs)

/-- Every step of a call in a run leaves the channel alone. -/
def Idles (X : Channel) (i : Nat) : List Action → Prop
  | [] => True
  | a :: as =>
    (a = .call i → ∀ c, X.calls[i]? = some c → X.Spares c) ∧ (X.step a).Idles i as

/-- The second channel is the first one without one of its calls. The queue that was given with this
call is lost in the first one, and nobody else has it. -/
structure Omits (lost : Option QueueId) (i : Nat) (X ch : Channel) : Prop where
  eq : ch = X.apart (X.calls.eraseIdx i) ch.queues
  begun : i < X.calls.length
  queues : ∀ k, lost ≠ some k → ch.queues[k]? = X.queues[k]?
  length : ch.queues.length = X.queues.length
  own : ∀ c, X.calls[i]? = some c → c.queue? = none ∨ c.queue? = lost
  alone : ∀ q, lost = some q → q ∉ ch.given

variable {lost : Option QueueId} {X' : Channel}

theorem mem_given :
    q ∈ ch.given ↔ ch.commands = some q ∨ ∃ c ∈ ch.calls, c.queue? = some q := by
  simp only [given, List.mem_append, Option.mem_toList, List.mem_filterMap]

theorem CallMove.queue?_cases {c' : Call} (m : CallMove ch c ch' c') :
    c'.queue? = none ∨ c'.queue? = c.queue? := by
  cases m with
  | bindCommands => exact .inr rfl
  | returned => exact .inl rfl
  | _ => exact .inl rfl

/-- What the tasks do not touch: the calls, the queues, and who is registered. -/
theorem AcceptorMove.unasked (m : AcceptorMove ch ch') :
    ch'.calls = ch.calls ∧ ch'.queues = ch.queues ∧ ch'.commands = ch.commands := by
  cases m <;> exact ⟨rfl, rfl, rfl⟩

theorem WiringMove.unasked {w w' : Wiring} (m : WiringMove ch w ch' w') :
    ch'.calls = ch.calls ∧ ch'.queues = ch.queues ∧ ch'.commands = ch.commands := by
  cases m <;> exact ⟨rfl, rfl, rfl⟩

theorem VerifierMove.unasked (m : VerifierMove ch ch') :
    ch'.calls = ch.calls ∧ ch'.queues = ch.queues ∧ ch'.commands = ch.commands := by
  cases m with
  | wire _ m | wired _ m => exact m.unasked
  | _ => exact ⟨rfl, rfl, rfl⟩

/-- A call that was given no queue. -/
theorem CallMove.unasked {c' : Call} (m : CallMove ch c ch' c') (hc : c.queue? = none) :
    ch'.calls = ch.calls ∧ ch'.queues = ch.queues ∧ ch'.commands = ch.commands := by
  cases m with
  | wire m | wired m => exact m.unasked
  | bindCommands | bindCommandsClosed | commandsBound | setCommands => cases hc
  | _ => exact ⟨rfl, rfl, rfl⟩

namespace Omits

theorem exists_apart (h : Omits lost i X ch) :
    ∃ queues, ch = X.apart (X.calls.eraseIdx i) queues :=
  ⟨ch.queues, h.eq⟩

theorem calls_eq (h : Omits lost i X ch) : ch.calls = X.calls.eraseIdx i := by
  obtain ⟨queues, rfl⟩ := h.exists_apart
  rfl

theorem commands_eq (h : Omits lost i X ch) : ch.commands = X.commands := by
  obtain ⟨queues, rfl⟩ := h.exists_apart
  rfl

/-- The queue of the registered command source is there in both. -/
theorem queue_of_commands (h : Omits lost i X ch) (hs : X.commands = some q) :
    ch.queues[q]? = X.queues[q]? := by
  apply h.queues
  intro hl
  apply h.alone q hl
  rw [given, h.commands_eq, hs]
  exact List.mem_append_left _ (List.mem_singleton_self q)

/-- A step that touches neither the calls nor the queues, the same in both. -/
theorem of_apart (h : Omits lost i X ch) (hc : X'.calls = X.calls) (hq : X'.queues = X.queues)
    (hs : X'.commands = X.commands) : Omits lost i X' (X'.apart ch.calls ch.queues) where
  eq := by
    rw [hc, ← h.calls_eq]
    rfl
  begun := hc ▸ h.begun
  queues k hk := hq ▸ h.queues k hk
  length := hq ▸ h.length
  own := hc ▸ h.own
  alone q hl := by
    have hgiven : (X'.apart ch.calls ch.queues).given = ch.given := by
      simp only [given, apart_commands, apart_calls, hs, h.commands_eq]
    rw [hgiven]
    exact h.alone q hl

/-- A change that looks neither at the calls nor at the queues. -/
theorem map {g : Channel → Channel} (h : Omits lost i X ch)
    (hg : ∀ X calls queues, g (apart X calls queues) = (g X).apart calls queues)
    (hk : (g X).calls = X.calls ∧ (g X).queues = X.queues ∧ (g X).commands = X.commands) :
    Omits lost i (g X) (g ch) := by
  have hch : g ch = (g X).apart ch.calls ch.queues := by
    have heq := h.eq
    rw [← h.calls_eq] at heq
    conv => lhs; rw [heq]
    exact hg X ch.calls ch.queues
  rw [hch]
  exact h.of_apart hk.1 hk.2.1 hk.2.2

/-- A task that looks neither at the calls nor at the queues. -/
theorem task {g : Channel → Option Channel} (h : Omits lost i X ch)
    (hg : ∀ X calls queues, g (apart X calls queues) = (g X).map (·.apart calls queues))
    (hk : ∀ X', g X = some X' →
      X'.calls = X.calls ∧ X'.queues = X.queues ∧ X'.commands = X.commands) :
    Omits lost i ((g X).getD X) ((g ch).getD ch) := by
  refine h.map (g := fun X => (g X).getD X) (fun X calls queues => ?_) ?_
  · rw [hg]
    cases g X <;> rfl
  · cases hX : g X with
    | none => exact ⟨rfl, rfl, rfl⟩
    | some X' => exact hk X' hX

/-- The same change of the same queue in both. -/
theorem onQueue (h : Omits lost i X ch) (q : QueueId)
    (f : CommandQueue Payload → CommandQueue Payload) :
    Omits lost i (X.onQueue q f) (ch.onQueue q f) where
  eq := by
    obtain ⟨queues, rfl⟩ := h.exists_apart
    rfl
  begun := h.begun
  queues k hk := by
    simp only [Channel.onQueue, List.getElem?_modify, h.queues k hk]
  length := by
    simpa only [Channel.onQueue, List.length_modify] using h.length
  own := h.own
  alone := h.alone

theorem onLink (h : Omits lost i X ch) (l : LinkId) (f : Link → Link) :
    Omits lost i (X.onLink l f) (ch.onLink l f) :=
  h.map (g := fun X => X.onLink l f) (fun _ _ _ => rfl) ⟨rfl, rfl, rfl⟩

theorem error (h : Omits lost i X ch) (m : String) : Omits lost i (X.error m) (ch.error m) :=
  h.map (g := fun X => X.error m) (fun _ _ _ => rfl) ⟨rfl, rfl, rfl⟩

theorem stopProducer (h : Omits lost i X ch) : Omits lost i X.stopProducer ch.stopProducer := by
  refine h.map (g := Channel.stopProducer)
    (fun X calls queues => X.stopProducer_apart calls queues) ?_
  rw [stopProducer_eq]
  exact ⟨rfl, rfl, rfl⟩

theorem producerStep (h : Omits lost i X ch) :
    Omits lost i (X.producerStep.getD X) (ch.producerStep.getD ch) := by
  have hqueue (q : QueueId) (hs : X.commands = some q) :
      ch.queues.getD q {} = X.queues.getD q {} := by
    rw [List.getD_eq_getElem?_getD, h.queue_of_commands hs, List.getD_eq_getElem?_getD]
  have hstop := h.stopProducer
  have hch : ch.producer = X.producer ∧ ch.disabled = X.disabled ∧ ch.slot = X.slot ∧
      ch.commands = X.commands ∧ ch.codec = X.codec ∧ ∀ l, ch.link l = X.link l := by
    obtain ⟨queues, rfl⟩ := h.exists_apart
    exact ⟨rfl, rfl, rfl, rfl, rfl, fun _ => rfl⟩
  obtain ⟨hproducer, hdisabled, hslot, hcommands, hcodec, hlink⟩ := hch
  simp only [Channel.producerStep, hproducer, hdisabled, hslot, hcommands, hcodec, hlink]
  split
  · exact h
  · split
    · exact hstop
    · cases X.slot with
      | none => exact h
      | some l =>
        cases hs : X.commands with
        | none => exact h
        | some q =>
          simp only [hqueue q hs]
          match (X.queues.getD q {}).next with
          | (found, queue) =>
            have hnext := h.onQueue q fun _ => queue
            cases found with
            | pending => exact h
            | exhausted => exact hstop
            | item p =>
              have failed := (hnext.error "Failed to send command to worker").stopProducer
              dsimp only
              cases X.codec.encode p with
              | error e => exact failed
              | ok frame =>
                dsimp only
                cases (X.link l).outbound.write frame with
                | error e => exact failed
                | ok stream => exact hnext.onLink l _

theorem reclaimStep (h : Omits lost i X ch) :
    Omits lost i (X.reclaimStep.getD X) (ch.reclaimStep.getD ch) := by
  have hch : ch.dropped = X.dropped ∧ ch.reclaimed = X.reclaimed ∧ ch.isUnused = X.isUnused ∧
      ch.slot = X.slot ∧ ch.commands = X.commands := by
    obtain ⟨queues, rfl⟩ := h.exists_apart
    exact ⟨rfl, rfl, rfl, rfl, rfl⟩
  obtain ⟨hdropped, hreclaimed, hunused, hslot, hcommands⟩ := hch
  have reclaimed {X ch : Channel} (h : Omits lost i X ch) :
      Omits lost i { X with reclaimed := true } { ch with reclaimed := true } :=
    h.map (g := fun X => { X with reclaimed := true }) (fun _ _ _ => rfl) ⟨rfl, rfl, rfl⟩
  simp only [Channel.reclaimStep, hdropped, hreclaimed, hunused, hslot]
  split
  · cases X.slot with
    | none =>
      simp only [hcommands]
      cases X.commands with
      | none => exact reclaimed h
      | some q => exact reclaimed (h.onQueue q _)
    | some l =>
      have hlink : (X.onLink l Link.release).commands = X.commands := rfl
      have hlink' : (ch.onLink l Link.release).commands = ch.commands := rfl
      simp only [hlink, hlink', hcommands]
      cases X.commands with
      | none => exact reclaimed (h.onLink l _)
      | some q => exact reclaimed ((h.onLink l _).onQueue q _)
  · exact h

theorem taskStep (h : Omits lost i X ch) (a : Actor) :
    Omits lost i ((X.taskStep a).getD X) ((ch.taskStep a).getD ch) := by
  cases a with
  | acceptor =>
    exact h.task (fun X calls queues => X.acceptorStep_apart calls queues)
      fun X' hX => (acceptorStep_move hX).unasked
  | verifier =>
    exact h.task (fun X calls queues => X.verifierStep_apart calls queues)
      fun X' hX => (verifierStep_move hX).unasked
  | consumer =>
    refine h.task (fun X calls queues => X.consumerStep_apart calls queues) fun X' hX => ?_
    cases consumerStep_move hX <;> exact ⟨rfl, rfl, rfl⟩
  | relay =>
    refine h.task (fun X calls queues => X.relayStep_apart calls queues) fun X' hX => ?_
    cases relayStep_move hX <;> exact ⟨rfl, rfl, rfl⟩
  | producer => exact h.producerStep
  | reclaimer => exact h.reclaimStep

/-! ## Steps of the calls -/

/-- The call that is left out goes on. -/
theorem idle (h : Omits lost i X ch) (hi : X.calls[i]? = some c) (hs : X.Spares c) :
    Omits lost i (X.stepCall i) ch := by
  have m := X.callStep_move c
  have hown (c' : Call) (hc : ((X.calls.set i (X.callStep c).2))[i]? = some c') :
      c'.queue? = none ∨ c'.queue? = lost := by
    rw [List.getElem?_set_self h.begun] at hc
    cases hc
    rcases m.queue?_cases with hq | hq
    · exact .inl hq
    · rw [hq]
      exact h.own c hi
  simp only [stepCall, hi]
  rcases hs with hs | ⟨q, hq, hs⟩
  · rw [hs]
    exact
      { eq := by
          rw [List.eraseIdx_set_eq]
          exact h.eq
        begun := by simpa using h.begun
        queues := h.queues
        length := h.length
        own := hown
        alone := h.alone }
  · have hlost : lost = some q := by
      rcases h.own c hi with hn | hn
      · rw [hq] at hn
        cases hn
      · rw [← hn, hq]
    rw [hs]
    exact
      { eq := by
          rw [List.eraseIdx_set_eq]
          exact h.eq
        begun := by simpa [refuseQueue, Channel.onQueue] using h.begun
        queues := fun k hk => by
          have hne : q ≠ k := fun he => hk (he ▸ hlost)
          simpa [refuseQueue, Channel.onQueue, List.getElem?_modify, hne] using h.queues k hk
        length := by simpa [refuseQueue, Channel.onQueue] using h.length
        own := hown
        alone := h.alone }

/-- Another call comes to a point at which it has no other queue. -/
theorem set {c' : Call} (h : Omits lost i X ch) (hne : j ≠ i) (hj : X.calls[j]? = some c)
    (hc : c'.queue? = none ∨ c'.queue? = c.queue?) :
    Omits lost i { X with calls := X.calls.set j c' }
      { ch with calls := ch.calls.set (indexWithout i j) c' } where
  eq := by
    rw [eraseIdx_set_indexWithout hne, ← h.calls_eq]
    obtain ⟨queues, rfl⟩ := h.exists_apart
    rfl
  begun := by simpa using h.begun
  queues := h.queues
  length := h.length
  own d hd := h.own d (by rwa [List.getElem?_set_ne hne] at hd)
  alone q hl hg := by
    apply h.alone q hl
    rw [mem_given] at hg ⊢
    refine hg.imp_right ?_
    rintro ⟨d, hd, hq⟩
    rcases List.mem_or_eq_of_mem_set hd with hd | rfl
    · exact ⟨d, hd, hq⟩
    · have hc : d.queue? = c.queue? := hc.resolve_left fun hn => by
        rw [hq] at hn
        cases hn
      refine ⟨c, ?_, hc ▸ hq⟩
      rw [h.calls_eq]
      exact List.mem_of_getElem? ((getElem?_eraseIdx_indexWithout hne).trans hj)

/-- The queue of another call is registered. -/
theorem register (h : Omits lost i X ch) (hne : j ≠ i) (hj : X.calls[j]? = some c)
    (hc : c.queue? = some q) :
    Omits lost i { X with commands := some q } { ch with commands := some q } where
  eq := by
    obtain ⟨queues, rfl⟩ := h.exists_apart
    rfl
  begun := h.begun
  queues := h.queues
  length := h.length
  own := h.own
  alone k hl hg := by
    apply h.alone k hl
    rw [mem_given] at hg ⊢
    right
    rcases hg with he | hg
    · cases he
      refine ⟨c, ?_, hc⟩
      rw [h.calls_eq]
      exact List.mem_of_getElem? ((getElem?_eraseIdx_indexWithout hne).trans hj)
    · exact hg

/-- Another call goes on. -/
theorem call (h : Omits lost i X ch) (hne : j ≠ i) :
    Omits lost i (X.stepCall j) (ch.stepCall (indexWithout i j)) := by
  have hget : ch.calls[indexWithout i j]? = X.calls[j]? := by
    rw [h.calls_eq]
    exact getElem?_eraseIdx_indexWithout hne
  simp only [stepCall, hget]
  cases hj : X.calls[j]? with
  | none => exact h
  | some c =>
    dsimp only
    have m := X.callStep_move c
    cases hc : c.queue? with
    | none =>
      obtain ⟨hcalls, hqueues, hcommands⟩ := m.unasked hc
      have hch : ch.callStep c =
          ((X.callStep c).1.apart ch.calls ch.queues, (X.callStep c).2) := by
        have heq := h.eq
        rw [← h.calls_eq] at heq
        conv => lhs; rw [heq]
        exact X.callStep_apart ch.calls ch.queues hc
      rw [hch]
      exact (h.of_apart hcalls hqueues hcommands).set hne (hcalls ▸ hj) m.queue?_cases
    | some q =>
      cases c with
      | bindCommands k =>
        have hclosed : ch.closed = X.closed := by
          obtain ⟨queues, rfl⟩ := h.exists_apart
          rfl
        simp only [callStep, hclosed]
        split
        · exact (h.onQueue k CommandQueue.close).set hne hj (.inl rfl)
        · exact h.set hne hj (.inr rfl)
      | setCommands k =>
        simp only [callStep, h.commands_eq]
        split
        · exact (h.onQueue k CommandQueue.close).set hne hj (.inl rfl)
        · exact (h.register hne hj rfl).set hne hj (.inl rfl)
      | _ => cases hc

/-- A call is begun, with another queue than the one that is lost. -/
theorem begin {r : Request} (h : Omits lost i X ch) (hb : X.canBegin r.call = true)
    (hr : ∀ q, lost = some q → r ≠ .bindCommands q) :
    Omits lost i (X.begin r) (ch.begin r) := by
  have hb' : ch.canBegin r.call = true := by
    have hdropped : ch.dropped = X.dropped := by
      obtain ⟨queues, rfl⟩ := h.exists_apart
      rfl
    simp only [canBegin, Bool.and_eq_true, List.all_eq_true, hdropped, h.calls_eq] at hb ⊢
    exact ⟨hb.1, fun d hd => hb.2 d (List.mem_of_mem_eraseIdx hd)⟩
  rw [Channel.begin, Channel.begin, if_pos hb, if_pos hb']
  exact
    { eq := by
        rw [List.eraseIdx_append_of_lt_length h.begun, ← h.calls_eq]
        obtain ⟨queues, rfl⟩ := h.exists_apart
        rfl
      begun := by
        rw [List.length_append]
        exact Nat.lt_add_right _ h.begun
      queues := h.queues
      length := h.length
      own := fun c hc => h.own c (by rwa [List.getElem?_append_left h.begun] at hc)
      alone := fun q hl hg => by
        rw [mem_given] at hg
        rcases hg with hg | ⟨d, hd, hq⟩
        · exact h.alone q hl (mem_given.2 (.inl hg))
        · rcases List.mem_append.1 hd with hd | hd
          · exact h.alone q hl (mem_given.2 (.inr ⟨d, hd, hq⟩))
          · rw [List.mem_singleton.1 hd] at hq
            cases r with
            | bindCommands k => cases hq; exact hr q hl rfl
            | _ => cases hq }

/-! ## Runs -/

theorem makeQueue (h : Omits lost i X ch) :
    Omits lost i { X with queues := X.queues ++ [{}] } { ch with queues := ch.queues ++ [{}] } where
  eq := by
    obtain ⟨queues, rfl⟩ := h.exists_apart
    rfl
  begun := h.begun
  queues k hk := by
    rcases Nat.lt_or_ge k X.queues.length with hlt | hge
    · rw [List.getElem?_append_left hlt, List.getElem?_append_left (h.length.symm ▸ hlt)]
      exact h.queues k hk
    · rw [List.getElem?_append_right hge, List.getElem?_append_right (h.length.symm ▸ hge),
        h.length]
  length := by simpa using h.length
  own := h.own
  alone := h.alone

/-- What happens outside, whatever becomes of the calls and the queues. -/
theorem outside (h : Omits lost i X ch) {a : Action} (ha : a.isOutside = true) :
    Omits lost i (X.step a) (ch.step a) := by
  refine h.map (g := (·.step a)) (fun X calls queues => ?_) ?_
  · cases a with
    | join =>
      simp only [Channel.step, join, apart_listener]
      split <;> rfl
    | print b =>
      simp only [Channel.step, apart_output]
      cases X.output.write b <;> rfl
    | _ => first | rfl | cases ha
  · rcases X.step_cases a with hs | m
    · rw [hs]
      exact ⟨rfl, rfl, rfl⟩
    · revert m
      generalize X.step a = X'
      intro m
      cases m <;> first | exact ⟨rfl, rfl, rfl⟩ | cases ha

/-- A step that is kept is taken in both channels; the call that is left out takes its own steps in
the first one only. -/
theorem step (h : Omits lost i X ch) (a : Action)
    (ha : ∀ q, lost = some q → a ≠ .begin (.bindCommands q))
    (hi : a = .call i → ∀ c, X.calls[i]? = some c → X.Spares c) :
    Omits lost i (X.step a) (ch.run (X.kept i a).toList) := by
  cases a with
  | task a => exact h.taskStep a
  | begin r =>
    rw [kept]
    split
    · rename_i hb
      exact h.begin hb fun q hl he => ha q hl (he ▸ rfl)
    · rename_i hb
      rw [Channel.step, Channel.begin, if_neg hb]
      exact h
  | call j =>
    rw [kept]
    split
    · rename_i he
      subst he
      cases hj : X.calls[j]? with
      | none =>
        simp only [Channel.step, stepCall, hj]
        exact h
      | some c => exact h.idle hj (hi rfl c hj)
    · rename_i hne
      exact h.call hne
  | makeQueue => exact h.makeQueue
  | command q p => exact h.onQueue q _
  | dropSender q => exact h.onQueue q _
  | _ => exact h.outside rfl

/-- A run without a call that leaves the channel alone ends in the same channel. -/
theorem run (h : Omits lost i X ch) (as : List Action)
    (ha : ∀ q, lost = some q → .begin (.bindCommands q) ∉ as) (hi : X.Idles i as) :
    Omits lost i (X.run as) (ch.run (X.without i as)) := by
  induction as generalizing X ch with
  | nil => exact h
  | cons a as ih =>
    have hstep := h.step a (fun q hl he => ha q hl (he ▸ List.mem_cons_self)) hi.1
    have hrest := ih hstep (fun q hl hm => ha q hl (List.mem_cons_of_mem _ hm)) hi.2
    have hsplit : ch.run ((X.kept i a).toList ++ (X.step a).without i as) =
        (ch.run (X.kept i a).toList).run ((X.step a).without i as) := List.foldl_append
    rw [without, hsplit]
    exact hrest

/-- A call that does not keep another one waiting can be left out. -/
theorem canBegin_eq {r : Request} (h : Omits lost i X ch)
    (hc : ∀ c, X.calls[i]? = some c → c.isReturned = true ∨
      r.call.isExclusive = false ∧ c.isExclusive = false) :
    ch.canBegin r.call = X.canBegin r.call := by
  have hdropped : ch.dropped = X.dropped := by
    obtain ⟨queues, rfl⟩ := h.exists_apart
    rfl
  rw [canBegin, canBegin, hdropped, h.calls_eq, Bool.eq_iff_iff]
  simp only [Bool.and_eq_true, List.all_eq_true]
  refine and_congr_right fun _ => ⟨fun hall d hd => ?_, fun hall d hd =>
    hall d (List.mem_of_mem_eraseIdx hd)⟩
  obtain ⟨j, hj⟩ := List.mem_iff_getElem?.1 hd
  by_cases hji : j = i
  · subst hji
    rcases hc d hj with hr | ⟨hr, hx⟩
    · rw [hr]
      rfl
    · rw [hr, hx]
      exact Bool.or_true _
  · exact hall d (List.mem_of_getElem? ((getElem?_eraseIdx_indexWithout hji).trans hj))

/-- A step that is taken in both runs. -/
theorem step_beyond (h : Omits lost i X ch) (a : Action)
    (ha : ∀ q, lost = some q → a ≠ .begin (.bindCommands q))
    (hr : ∀ r c, a = .begin r → X.calls[i]? = some c → c.isReturned = true ∨
      r.call.isExclusive = false ∧ c.isExclusive = false) :
    Omits lost i (X.step (a.beyond i)) (ch.step a) := by
  cases a with
  | begin r =>
    have hb := h.canBegin_eq fun c hc => hr r c rfl hc
    have hstep := h.step (.begin r) ha nofun
    rw [kept] at hstep
    split at hstep
    · exact hstep
    · rename_i hn
      rw [← hb] at hn
      have hch : ch.step (.begin r) = ch := by rw [Channel.step, Channel.begin, if_neg hn]
      rw [hch]
      exact hstep
  | call j =>
    have hstep := h.call (indexBeyond_ne i j)
    rwa [indexWithout_indexBeyond] at hstep
  | _ => exact h.step _ ha fun he => Action.noConfusion he

/-- A run with a call woven in that leaves the channel alone ends in the same channel. -/
theorem run_weaves {as bs : List Action} (h : Omits lost i X ch) (hw : Weaves i X as bs)
    (ha : ∀ q, lost = some q → .begin (.bindCommands q) ∉ as) (hi : X.Idles i bs) :
    Omits lost i (X.run bs) (ch.run as) := by
  induction hw generalizing ch with
  | nil => exact h
  | own hw ih =>
    have hstep := h.step (.call i) nofun hi.1
    rw [kept, if_pos rfl] at hstep
    exact ih hstep ha hi.2
  | other hr hw ih =>
    have hstep := h.step_beyond _ (fun q hl he => ha q hl (he ▸ List.mem_cons_self)) hr
    exact ih hstep (fun q hl hm => ha q hl (List.mem_cons_of_mem _ hm)) hi.2

end Omits

/-- A call that has returned keeps nobody waiting. -/
theorem weaves_of_returned {result : Except ChannelError Unit}
    (hi : X.calls[i]? = some (.returned result)) (as : List Action) :
    X.Weaves i as (as.map (·.beyond i)) := by
  induction as generalizing X with
  | nil => exact .nil
  | cons a as ih =>
    refine .other (fun r c _ hc => .inl ?_) (ih (calls_step_of_ne hi ?_))
    · obtain rfl : Call.returned result = c := Option.some.inj (hi.symm.trans hc)
      rfl
    · cases a with
      | call j => exact fun he => indexBeyond_ne i j (Action.call.inj he)
      | _ => nofun

/-- A call leaves the channel alone at each of its steps if it does so wherever something holds that
is kept. -/
theorem Idles.of_kept {P : Channel → Call → Prop} (spares : ∀ {X c}, P X c → X.Spares c)
    (own : ∀ {X c}, X.calls[i]? = some c → P X c → P (X.step (.call i)) (X.callStep c).2)
    (others : ∀ {X c a}, X.calls[i]? = some c → P X c → a ≠ .call i → P (X.step a) c)
    (hi : X.calls[i]? = some c) (h : P X c) (as : List Action) : X.Idles i as := by
  induction as generalizing X c with
  | nil => trivial
  | cons a as ih =>
    by_cases ha : a = .call i
    · subst ha
      refine ⟨fun _ c' hc' => ?_, ih (calls_stepCall hi) (own hi h)⟩
      obtain rfl : c = c' := Option.some.inj (hi.symm.trans hc')
      exact spares h
    · exact ⟨fun he => (ha he).elim, ih (calls_step_of_ne hi ha) (others hi h ha)⟩

/-- A call that has returned does nothing any more. -/
theorem idles_returned {result : Except ChannelError Unit}
    (hi : X.calls[i]? = some (.returned result)) (as : List Action) : X.Idles i as := by
  refine Idles.of_kept (P := fun _ c => c = .returned result) ?_ ?_ ?_ hi rfl as
  · rintro X c rfl
    exact .inl rfl
  · rintro X c - rfl
    rfl
  · exact fun _ h _ => h

/-- Without a call that was given no queue, the run ends in the same channel but for the calls. -/
theorem Omits.eq_of_none (h : Omits none i X ch) : ch = { X with calls := ch.calls } := by
  have hq : ch.queues = X.queues := List.ext_getElem? fun k => h.queues k nofun
  obtain ⟨queues, rfl⟩ := h.exists_apart
  simp only [apart_queues] at hq
  rw [hq]
  rfl

/-- What is begun in a run without one of its calls is begun in the run. -/
theorem mem_without {r : Request} {as : List Action} (h : .begin r ∈ X.without i as) :
    .begin r ∈ as := by
  induction as generalizing X with
  | nil => cases h
  | cons a as ih =>
    rw [without, List.mem_append, Option.mem_toList] at h
    rcases h with h | h
    · cases a with
      | begin r' =>
        rw [kept] at h
        split at h
        · cases h
          exact List.mem_cons_self
        · cases h
      | call j =>
        rw [kept] at h
        split at h <;> cases h
      | _ => cases h
    · exact List.mem_cons_of_mem _ (ih h)

/-- A call that was just begun, in a channel that was not given its queue. -/
theorem Omits.of_begin {r : Request} (hb : ch.canBegin r.call = true)
    (hq : ∀ q, r = .bindCommands q → q ∉ ch.given) :
    Omits r.call.queue? ch.calls.length (ch.step (.begin r)) ch := by
  rw [Channel.step, Channel.begin, if_pos hb]
  exact
    { eq := by
        rw [List.eraseIdx_append_of_length_le (Nat.le_refl _), Nat.sub_self,
          List.eraseIdx_cons_zero, List.append_nil]
        rfl
      begun := by simp
      queues := fun _ _ => rfl
      length := rfl
      own := fun c hc => by
        rw [List.getElem?_concat_length] at hc
        cases hc
        exact .inr rfl
      alone := fun q hl => by
        cases r with
        | bindCommands k => cases hl; exact hq q rfl
        | _ => cases hl }

/-! ## Adding calls -/

/-- A run with one more call, which is made where something holds of the channel and of what comes
after it. -/
inductive AddsCall (start : Channel) (r : Request) (P : Channel → List Action → Prop) :
    List Action → List Action → Prop where
  | insert {before as bs : List Action} (hb : (start.run before).canBegin r.call = true)
    (hw : ((start.run before).step (.begin r)).Weaves (start.run before).calls.length as bs)
    (h : P (start.run before) bs) :
    AddsCall start r P (before ++ as) (before ++ .begin r :: bs)

theorem step_begin {r : Request} (hb : ch.canBegin r.call = true) :
    ch.step (.begin r) = { ch with calls := ch.calls ++ [r.call] } := by
  rw [step, begin, if_pos hb]

theorem calls_step_begin {r : Request} (hb : ch.canBegin r.call = true) :
    (ch.step (.begin r)).calls[ch.calls.length]? = some r.call := by
  rw [step_begin hb]
  exact List.getElem?_concat_length

/-- With any number of calls more that leave the channel alone and are given no queue, a run ends in
the same channel, but for the calls. -/
theorem run_eq_of_addsCall {start : Channel} {r : Request} {P : Channel → List Action → Prop}
    (hq : r.call.queue? = none)
    (hidle : ∀ ch bs, ch.canBegin r.call = true → P ch bs →
      (ch.step (.begin r)).Idles ch.calls.length bs) {as bs : List Action}
    (h : Relation.ReflTransGen (start.AddsCall r P) as bs) :
    start.run as = { start.run bs with calls := (start.run as).calls } ∧
      (start.run as).calls.Sublist (start.run bs).calls := by
  induction h with
  | refl => exact ⟨rfl, List.Sublist.refl _⟩
  | tail _ hlast ih =>
    obtain ⟨heq, hsub⟩ := ih
    cases hlast with
    | @insert before as bs hb hw h =>
      have hrun (rest : List Action) : start.run (before ++ rest) = (start.run before).run rest :=
        List.foldl_append
      have hbegin := Omits.of_begin hb fun q he => by
        subst he
        cases hq
      rw [hq] at hbegin
      have homits := hbegin.run_weaves hw nofun (hidle _ _ hb h)
      rw [hrun] at heq hsub
      rw [hrun (.begin r :: bs)]
      refine ⟨?_, hsub.trans (homits.calls_eq ▸ List.eraseIdx_sublist ..)⟩
      rw [homits.eq_of_none] at heq
      exact heq

end Channel

end WorkerLink
