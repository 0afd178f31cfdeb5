import WorkerLink.Proofs.Channel.Closing

/-!
# Calls that exclude each other

A call that needs the channel for itself is the only one under way (`Excludes`). Closing the channel
is such a call, so nothing else is half done when it begins, and whatever is begun afterwards is
refused before it changes anything (`Refuses`).
-/

namespace WorkerLink

/-- Whether a call is at a point that it reaches only in a channel that is open. -/
def Call.isGranted : Call → Bool
  | .connectListener | .connectAnnounce | .connectSpawn | .setCommands _ | .setEvents _
  | .reserve _ | .relayOutput | .arrive | .wire _ => true
  | _ => false

theorem Call.not_isGranted_of_isReturned {c : Call} (h : c.isReturned = true) :
    c.isGranted = false := by
  cases c with
  | returned => rfl
  | _ => cases h

theorem Request.not_isGranted (r : Request) : r.call.isGranted = false := by
  cases r <;> rfl

/-- Whether an action is a step of a call. -/
def Action.goesOn (i : Nat) : Action → Bool
  | .call j => decide (j = i)
  | _ => false

theorem countP_goesOn_own (i : Nat) (as : List Action) :
    (Action.call i :: as).countP (·.goesOn i) = as.countP (·.goesOn i) + 1 :=
  List.countP_cons_of_pos (by simp [Action.goesOn])

theorem countP_goesOn_other {a : Action} {i : Nat} (ha : a ≠ .call i) (as : List Action) :
    (a :: as).countP (·.goesOn i) = as.countP (·.goesOn i) := by
  refine List.countP_cons_of_neg ?_
  cases a with
  | call j => simpa [Action.goesOn] using ha
  | _ => simp [Action.goesOn]

namespace Channel

variable {ch ch' : Channel} {a : Action} {c c' : Call}

/-- A call that needs the channel for itself is the only one under way. -/
def Excludes (ch : Channel) : Prop :=
  ∀ (i j : Nat) (c d : Call), ch.calls[i]? = some c → ch.calls[j]? = some d →
    c.isExclusive = true → d.isReturned = false → i = j

/-- Once a channel is closed, no call is at a point that it reaches only in one that is open. -/
def Refuses (ch : Channel) : Prop :=
  ch.closed = true → ∀ c ∈ ch.calls, c.isGranted = false

/-! ## What happens to the calls -/

/-- What a move does to the calls. -/
inductive CallsMove (ch : Channel) : Action → Channel → Prop where
  | same {a : Action} {ch' : Channel} (h : ch'.calls = ch.calls) : CallsMove ch a ch'
  | begin {r : Request} (h : ch.canBegin r.call = true) :
    CallsMove ch (.begin r) { ch with calls := ch.calls ++ [r.call] }
  | call {i : Nat} {c c' : Call} {ch' : Channel} (hi : ch.calls[i]? = some c)
      (m : CallMove ch c ch' c') : CallsMove ch (.call i) { ch' with calls := ch.calls.set i c' }

theorem Move.callsMove (m : Move ch a ch') : CallsMove ch a ch' := by
  cases m with
  | acceptor m => exact .same m.ne_absent.2.2.1
  | verifier m => exact .same m.calls_eq
  | consumer m => cases m <;> exact .same rfl
  | producer m => cases m <;> exact .same rfl
  | relay m => cases m <;> exact .same rfl
  | begin h => exact .begin h
  | call hi m =>
    rw [m.calls_eq]
    exact .call hi m
  | _ => exact .same rfl

theorem calls_stepCall {i : Nat} (hi : ch.calls[i]? = some c) :
    (ch.step (.call i)).calls[i]? = some (ch.callStep c).2 := by
  simp only [step, stepCall, hi, (ch.callStep_move c).calls_eq]
  exact List.getElem?_set_self (List.getElem?_eq_some_iff.1 hi).1

/-- A call goes on with its own steps only. -/
theorem calls_step_of_ne {i : Nat} (hi : ch.calls[i]? = some c) (ha : a ≠ .call i) :
    (ch.step a).calls[i]? = some c := by
  rcases ch.step_cases a with hs | m
  · rw [hs]
    exact hi
  · have hcalls := m.callsMove
    revert hcalls
    generalize ch.step a = ch'
    intro hcalls
    cases hcalls with
    | same he => rwa [he]
    | begin => exact (List.getElem?_append_left (List.getElem?_eq_some_iff.1 hi).1).trans hi
    | @call j =>
      have hne : j ≠ i := fun he => ha (congrArg Action.call he)
      exact (List.getElem?_set_ne hne).trans hi

/-- How a call comes along in a run, if each step of its own brings it on by one and the others
leave it where it is. -/
theorem run_call {P : Channel → Nat → Call → Prop} {i n : Nat}
    (own : ∀ {ch n c}, ch.calls[i]? = some c → P ch n c →
      P (ch.step (.call i)) (n - 1) (ch.callStep c).2)
    (others : ∀ {ch n c a}, ch.calls[i]? = some c → P ch n c → a ≠ .call i → P (ch.step a) n c)
    (hi : ch.calls[i]? = some c) (h : P ch n c) (as : List Action) :
    ∃ c', (ch.run as).calls[i]? = some c' ∧ P (ch.run as) (n - as.countP (·.goesOn i)) c' := by
  induction as generalizing ch n c with
  | nil => exact ⟨c, hi, h⟩
  | cons a as ih =>
    by_cases ha : a = .call i
    · subst ha
      rw [countP_goesOn_own, Nat.add_comm, ← Nat.sub_sub]
      exact ih (calls_stepCall hi) (own hi h)
    · rw [countP_goesOn_other ha]
      exact ih (calls_step_of_ne hi ha) (others hi h ha)

/-- A call stays what it is until it returns. -/
theorem CallMove.exclusive (m : CallMove ch c ch' c') :
    (c'.isExclusive = true → c.isExclusive = true) ∧
      (c'.isReturned = false → c.isReturned = false) := by
  cases m with
  | returned => exact ⟨id, id⟩
  | _ => exact ⟨by simp [Call.isExclusive], fun _ => rfl⟩

theorem Excludes.begin {r : Request} (h : ch.Excludes) (hr : ch.canBegin r.call = true) :
    Excludes { ch with calls := ch.calls ++ [r.call] } := by
  have old : ∀ d ∈ ch.calls, d.isReturned = false →
      r.call.isExclusive = false ∧ d.isExclusive = false := by
    intro d hd hret
    simp only [canBegin, Bool.and_eq_true, List.all_eq_true] at hr
    simpa [hret] using hr.2 d hd
  intro i j c d hi hj hc hd
  rcases getElem?_concat_cases hi with hi | ⟨rfl, rfl⟩ <;>
    rcases getElem?_concat_cases hj with hj | ⟨rfl, rfl⟩
  · exact h i j c d hi hj hc hd
  · have hret : c.isReturned = false := by
      cases c with
      | returned => cases hc
      | _ => rfl
    rw [(old c (List.mem_of_getElem? hi) hret).2] at hc
    cases hc
  · rw [(old d (List.mem_of_getElem? hj) hd).1] at hc
    cases hc
  · rfl

theorem Excludes.call {i : Nat} (h : ch.Excludes) (hi : ch.calls[i]? = some c)
    (m : CallMove ch c ch' c') : Excludes { ch' with calls := ch.calls.set i c' } := by
  -- whatever stands at an index now was no less exclusive and no less under way before
  have before (j : Nat) (d : Call) (hj : (ch.calls.set i c')[j]? = some d) :
      ∃ d₀, ch.calls[j]? = some d₀ ∧ (d.isExclusive = true → d₀.isExclusive = true) ∧
        (d.isReturned = false → d₀.isReturned = false) := by
    rcases getElem?_set_cases hj with ⟨rfl, rfl⟩ | ⟨-, hj⟩
    · exact ⟨c, hi, m.exclusive⟩
    · exact ⟨d, hj, id, id⟩
  intro j k d e hj hk hd he
  obtain ⟨d₀, hj₀, hx, -⟩ := before j d hj
  obtain ⟨e₀, hk₀, -, hr⟩ := before k e hk
  exact h j k d₀ e₀ hj₀ hk₀ (hx hd) (hr he)

theorem Excludes.keeps (h : ch.Excludes) (m : Move ch a ch') : ch'.Excludes := by
  have hcalls := m.callsMove
  cases hcalls with
  | same he =>
    intro i j c d hi hj
    rw [he] at hi hj
    exact h i j c d hi hj
  | begin hr => exact h.begin hr
  | call hi mc => exact h.call hi mc

/-- While a call that needs the channel for itself is under way, all others have returned. -/
theorem Excludes.returned {i : Nat} (h : ch.Excludes) (hi : ch.calls[i]? = some c)
    (hc : c.isExclusive = true) : ∀ d ∈ ch.calls.set i c', d = c' ∨ d.isReturned = true := by
  intro d hd
  obtain ⟨j, hj⟩ := List.mem_iff_getElem?.1 hd
  rcases getElem?_set_cases hj with ⟨-, rfl⟩ | ⟨hne, hj⟩
  · exact .inl rfl
  · right
    cases hr : d.isReturned with
    | true => rfl
    | false => exact (hne (h i j c d hi hj hc hr)).elim

/-! ## Being closed -/

/-- A channel is closed by the first step of a call to close it. -/
theorem CallMove.closes (m : CallMove ch c ch' c') (ho : ch.closed = false)
    (hc : ch'.closed = true) : ∃ dropping, c = .close dropping .start ∧
      c' = .close dropping .announce ∧ ch' = { ch with closed := true } := by
  cases m with
  | close => exact ⟨_, rfl, rfl, rfl⟩
  | wire m | wired m =>
    rw [m.closed_eq, ho] at hc
    cases hc
  | _ =>
    rw [show ch.closed = true from hc] at ho
    cases ho

theorem Move.closes (m : Move ch a ch') (ho : ch.closed = false) (hc : ch'.closed = true) :
    ∃ i dropping, a = .call i ∧ ch.calls[i]? = some (.close dropping .start) ∧
      ch' = { ch with closed := true, calls := ch.calls.set i (.close dropping .announce) } := by
  have open_after {P : Prop} (he : ch'.closed = ch.closed) : P := by
    rw [he, ho] at hc
    cases hc
  cases m with
  | acceptor m => cases m <;> exact open_after rfl
  | verifier m =>
    cases m with
    | wire _ m | wired _ m => exact open_after m.closed_eq
    | _ => exact open_after rfl
  | consumer m => cases m <;> exact open_after rfl
  | producer m => cases m <;> exact open_after rfl
  | relay m => cases m <;> exact open_after rfl
  | call hi m =>
    obtain ⟨dropping, rfl, rfl, rfl⟩ := m.closes ho hc
    exact ⟨_, dropping, rfl, hi, rfl⟩
  | _ => exact open_after rfl

/-- In a closed channel no call comes to a point that it reaches only in one that is open. -/
theorem CallMove.granted (m : CallMove ch c ch' c') (h : ch.closed = true)
    (hc : c.isGranted = false) : c'.isGranted = false := by
  cases m with
  | connect ho | bindCommands ho | bindEvents ho =>
    rw [h] at ho
    cases ho
  | takeListener | announceAccepting | setCommands | setEvents | reserve | reserveRelay
  | relayOutput | opens | wire => cases hc
  | _ => rfl

theorem Refuses.keeps (h : ch.Refuses) (hx : ch.Excludes) (m : Move ch a ch') : ch'.Refuses := by
  intro hc c hm
  cases ho : ch.closed with
  | false =>
    obtain ⟨i, dropping, -, hi, rfl⟩ := m.closes ho hc
    rcases hx.returned hi rfl c hm with rfl | hr
    · rfl
    · exact Call.not_isGranted_of_isReturned hr
  | true =>
    have hcalls := m.callsMove
    cases hcalls with
    | same he => exact h ho c (he ▸ hm)
    | @begin r =>
      rcases List.mem_append.1 hm with hm | hm
      · exact h ho c hm
      · rw [List.mem_singleton.1 hm]
        exact r.not_isGranted
    | call hi mc =>
      rcases List.mem_or_eq_of_mem_set hm with hm | rfl
      · exact h ho c hm
      · exact mc.granted ho (h ho _ (List.mem_of_getElem? hi))

end Channel

end WorkerLink
