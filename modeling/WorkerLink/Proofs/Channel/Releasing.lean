import WorkerLink.Proofs.Channel.Teardown

/-!
# What closing releases

A call that closes the channel attempts two releases, that of the worker's connection and that of
the listening socket, the second one however the first one went. It goes through its points in order
while everything else goes on (`ClosingAt`), and it answers with what the two attempts gave
(`closeAnswer`).
-/

namespace WorkerLink

/-- What closing answers, by how the release of the worker's connection and that of the listening
socket went. -/
def closeAnswer : Except IoError Unit → Except IoError Unit → Except ChannelError Unit
  | .ok (), .ok () => .ok ()
  | .error e, .ok () | .ok (), .error e => .error (.close ⟨e, []⟩)
  | .error first, .error second => .error (.close ⟨first, [second]⟩)

namespace Channel

variable {ch : Channel} {a : Action} {c : Call} {i n : Nat} {done : List (Except IoError Unit)}

/-- The release that an action attempts, by what the attempt gives. -/
def release? (ch : Channel) : Action → Option (Except IoError Unit)
  | .call i =>
    match ch.calls[i]? with
    | some (.close _ .shutWorker) => some ch.shutWorker.1
    | some (.close _ (.releaseListener _)) => some ch.releaseListener.1
    | _ => none
  | _ => none

/-- The releases that are attempted in a run, in order. -/
def releases (ch : Channel) : List Action → List (Except IoError Unit)
  | [] => []
  | a :: as => (ch.release? a).toList ++ (ch.step a).releases as

theorem finishClosing_answer (ch : Channel) (w r : Except IoError Unit) :
    (ch.finishClosing false [w, r]).2 = .returned (closeAnswer w r) := by
  rcases w with _ | ⟨⟩ <;> rcases r with _ | ⟨⟩ <;> rfl

/-- Nobody but who closes the channel releases anything. -/
theorem release?_eq_none (h : ∀ j c, a = .call j → ch.calls[j]? = some c → c.closing? = none) :
    ch.release? a = none := by
  cases a with
  | call j =>
    rw [release?]
    split
    · rename_i hj
      cases h j _ rfl hj
    · rename_i hj
      cases h j _ rfl hj
    · rfl
  | _ => rfl

/-- Where a call to close the channel stands, with the releases that it has attempted and the number
of steps that it has left. -/
inductive ClosingAt (ch : Channel) : List (Except IoError Unit) → Nat → Call → Prop where
  | start (h : ch.closed = false) : ClosingAt ch [] 7 (.close false .start)
  | announce (h : ch.closed = true) : ClosingAt ch [] 6 (.close false .announce)
  | shutWorker (h : ch.closed = true) : ClosingAt ch [] 5 (.close false .shutWorker)
  | releaseListener {w : Except IoError Unit} (h : ch.closed = true) :
    ClosingAt ch [w] 4 (.close false (.releaseListener w))
  | abortStreams {w r : Except IoError Unit} (h : ch.closed = true) :
    ClosingAt ch [w, r] 3 (.close false (.abortStreams [w, r]))
  | abortConsole {w r : Except IoError Unit} (h : ch.closed = true) :
    ClosingAt ch [w, r] 2 (.close false (.abortConsole [w, r]))
  | giveBack {w r : Except IoError Unit} (h : ch.closed = true) :
    ClosingAt ch [w, r] 1 (.close false (.giveBack [w, r]))
  | returned {w r : Except IoError Unit} {n : Nat} (h : ch.HasClosed) :
    ClosingAt ch [w, r] n (.returned (closeAnswer w r))

theorem step_closed (h : ch.closed = true) (a : Action) : (ch.step a).closed = true := by
  rcases ch.step_cases a with hs | m
  · rwa [hs]
  · exact m.closed_of_closed h

/-- A call that closes the channel is the only one under way, so with its return closing has come to
its end. -/
theorem Excludes.hasClosed {result : Except ChannelError Unit} (h : ch.Excludes)
    (hc : ch.closed = true) (hi : ch.calls[i]? = some c) (hx : c.isExclusive = true)
    (hr : (ch.callStep c).2 = .returned result) : (ch.step (.call i)).HasClosed := by
  refine ⟨step_closed hc _, ?_⟩
  have hcalls : (ch.step (.call i)).calls = ch.calls.set i (.returned result) := by
    simp only [step, stepCall, hi, (ch.callStep_move c).calls_eq, hr]
  rw [hcalls]
  intro d hd
  rcases h.returned hi hx d hd with rfl | hd
  · rfl
  · cases d with
    | returned => rfl
    | _ => cases hd

namespace ClosingAt

theorem own (h : ch.ClosingAt done n c) (hx : ch.Excludes) (hi : ch.calls[i]? = some c) :
    (ch.step (.call i)).ClosingAt (done ++ (ch.release? (.call i)).toList) (n - 1)
      (ch.callStep c).2 := by
  -- a point at which nothing is released
  have kept (hr : ch.release? (.call i) = none) {m : Nat} {c' : Call}
      (hd : (ch.step (.call i)).ClosingAt done m c') :
      (ch.step (.call i)).ClosingAt (done ++ (ch.release? (.call i)).toList) m c' := by
    rwa [hr, Option.toList_none, List.append_nil]
  cases h with
  | start ho =>
    have hnext : ch.callStep (.close false .start) =
        ({ ch with closed := true }, .close false .announce) := by simp [callStep, ho]
    have hclosed : (ch.step (.call i)).closed = true := by
      simp only [Channel.step, stepCall, hi, hnext]
    refine kept (by simp [release?, hi]) ?_
    rw [hnext]
    exact .announce hclosed
  | announce hc => exact kept (by simp [release?, hi]) (.shutWorker (step_closed hc _))
  | shutWorker hc =>
    have hr : ch.release? (.call i) = some ch.shutWorker.1 := by simp [release?, hi]
    rw [hr]
    exact .releaseListener (step_closed hc _)
  | @releaseListener w hc =>
    have hr : ch.release? (.call i) = some ch.releaseListener.1 := by simp [release?, hi]
    rw [hr]
    exact .abortStreams (step_closed hc _)
  | abortStreams hc => exact kept (by simp [release?, hi]) (.abortConsole (step_closed hc _))
  | abortConsole hc => exact kept (by simp [release?, hi]) (.giveBack (step_closed hc _))
  | @giveBack w r hc =>
    have hnext : (ch.callStep (.close false (.giveBack [w, r]))).2 =
        .returned (closeAnswer w r) := finishClosing_answer _ w r
    refine kept (by simp [release?, hi]) ?_
    rw [hnext]
    exact .returned (hx.hasClosed hc hi rfl hnext)
  | returned hc =>
    refine kept (by simp [release?, hi]) (.returned ?_)
    rcases ch.step_cases (.call i) with hs | m
    · rwa [hs]
    · exact hc.keeps m

theorem others (h : ch.ClosingAt done n c) (hx : ch.Excludes) (hi : ch.calls[i]? = some c)
    (ha : a ≠ .call i) :
    (ch.step a).ClosingAt (done ++ (ch.release? a).toList) n c := by
  have hnone : ch.release? a = none := by
    refine release?_eq_none fun j d hj hd => ?_
    cases h with
    | returned hc => exact hc.2 d (List.mem_of_getElem? hd)
    | _ =>
      -- a second call to close would have to wait for the first one
      cases hp : d.closing? with
      | none => rfl
      | some point =>
        have hdx : d.isExclusive = true := by
          cases d with
          | close => rfl
          | _ => cases hp
        obtain rfl := hx j i d _ hd hi hdx rfl
        exact (ha hj).elim
  rw [hnone, Option.toList_none, List.append_nil]
  cases h with
  | start ho =>
    refine .start ?_
    rcases ch.step_cases a with hs | m
    · rwa [hs]
    · cases hc : (ch.step a).closed with
      | false => rfl
      | true =>
        obtain ⟨j, dropping, rfl, hj, -⟩ := m.closes ho hc
        obtain rfl := hx j i _ _ hj hi rfl rfl
        exact (ha rfl).elim
  | announce hc => exact .announce (step_closed hc a)
  | shutWorker hc => exact .shutWorker (step_closed hc a)
  | releaseListener hc => exact .releaseListener (step_closed hc a)
  | abortStreams hc => exact .abortStreams (step_closed hc a)
  | abortConsole hc => exact .abortConsole (step_closed hc a)
  | giveBack hc => exact .giveBack (step_closed hc a)
  | returned hc =>
    refine .returned ?_
    rcases ch.step_cases a with hs | m
    · rwa [hs]
    · exact hc.keeps m

/-- Whatever else happens, each step of the call takes it on by one point. -/
theorem run (h : ch.ClosingAt done n c) (hc : ch.Closes) (hi : ch.calls[i]? = some c)
    (as : List Action) :
    ∃ c', (ch.run as).calls[i]? = some c' ∧
      (ch.run as).ClosingAt (done ++ ch.releases as) (n - as.countP (·.goesOn i)) c' := by
  induction as generalizing ch done n c with
  | nil =>
    rw [releases, List.append_nil]
    exact ⟨c, hi, h⟩
  | cons a as ih =>
    have hc' : (ch.step a).Closes := hc.run [a]
    rw [releases, ← List.append_assoc]
    by_cases ha : a = .call i
    · subst ha
      rw [countP_goesOn_own, Nat.add_comm, ← Nat.sub_sub]
      exact ih (h.own hc.excludes hi) hc' (calls_stepCall hi)
    · rw [countP_goesOn_other ha]
      exact ih (h.others hc.excludes hi ha) hc' (calls_step_of_ne hi ha)

end ClosingAt

/-- A call that closes the channel has attempted both releases after seven of its steps, and nobody
has attempted another one. -/
theorem hasClosed_of_begin (hc : ch.Closes) (ho : ch.closed = false)
    (hb : ch.canBegin Request.close.call = true) {as : List Action}
    (hn : 7 ≤ as.countP (·.goesOn ch.calls.length)) :
    (ch.run (.begin .close :: as)).HasClosed ∧ ∃ w r,
      ch.releases (.begin .close :: as) = [w, r] ∧
        (ch.run (.begin .close :: as)).calls[ch.calls.length]? =
          some (.returned (closeAnswer w r)) := by
  have hstart : (ch.step (.begin .close)).ClosingAt [] 7 (.close false .start) := by
    rw [Channel.step, Channel.begin, if_pos hb]
    exact .start ho
  have hi : (ch.step (.begin .close)).calls[ch.calls.length]? = some (.close false .start) := by
    rw [Channel.step, Channel.begin, if_pos hb]
    exact List.getElem?_concat_length
  obtain ⟨c, hcall, hat⟩ := hstart.run (hc.run [.begin .close]) hi as
  have hreleases : ch.releases (.begin .close :: as) = (ch.step (.begin .close)).releases as := rfl
  have hrun : ch.run (.begin .close :: as) = (ch.step (.begin .close)).run as := rfl
  rw [hreleases, hrun]
  rw [Nat.sub_eq_zero_of_le hn, List.nil_append] at hat
  generalize (ch.step (.begin .close)).releases as = done at hat
  cases hat with
  | @returned w r _ hclosed => exact ⟨hclosed, w, r, rfl, hcall⟩

end Channel

end WorkerLink
