import WorkerLink.Proofs.Channel.Exclusion
import WorkerLink.Proofs.Channel.Invariant

/-!
# What the owner asked for, and what it was told

A request asks for a service of the channel. Its call brings the service about with one step, or is
refused and leaves everything as it was. So a channel provides a service exactly when some request
for it was granted (`has_iff_grants`), whatever else has happened in between.
-/

namespace WorkerLink

/-- What a channel provides for its owner. -/
inductive Service where
  /-- Somebody accepts the worker. -/
  | accepting
  /-- There is a source of commands. -/
  | commands
  /-- There is a handler of events. -/
  | events
  /-- The channel is closed. -/
  | closing
  deriving DecidableEq

/-- What a request asks for. Stopping the streams is not a service: it may come to nothing. -/
def Request.service? : Request → Option Service
  | .connect => some .accepting
  | .bindCommands _ => some .commands
  | .bindEvents _ => some .events
  | .disable => none
  | .close | .drop => some .closing

namespace Call

/-- The service that a call is still to bring about. -/
def service? : Call → Option Service
  | .connect | .connectListener | .connectAnnounce | .connectSpawn => some .accepting
  | .bindCommands _ | .setCommands _ => some .commands
  | .bindEvents _ | .setEvents _ => some .events
  | .close _ .start => some .closing
  | _ => none

/-- Whether a call has brought about what it was begun for. It may have to go on all the same, and
closing may have a failure to report. -/
def isServed : Call → Bool
  | .reserve _ | .relayOutput | .arrive | .wire _ | .returned (.ok ()) => true
  | .close _ .start => false
  | .close .. | .returned (.error (.close _)) => true
  | _ => false

/-- Whether a call returns, or has returned, what came of closing the channel. -/
def mayReport : Call → Bool
  | .close .. | .returned (.error (.close _)) => true
  | _ => false

end Call

/-- Whether an action is the owner's. -/
def Action.byOwner : Action → Bool
  | .begin _ | .call _ => true
  | _ => false

namespace Channel

variable {ch ch' : Channel} {a : Action} {c c' : Call} {r : Request} {rs : List Request}
  {s : Service}

/-- Whether a channel provides a service. -/
def has (ch : Channel) : Service → Bool
  | .accepting => decide (ch.acceptor ≠ .absent)
  | .commands => ch.commands.isSome
  | .events => ch.handler
  | .closing => ch.closed

/-- The request that an action makes, if it is possible. -/
def request? (ch : Channel) : Action → Option Request
  | .begin r => if ch.canBegin r.call then some r else none
  | _ => none

/-- The requests that are made in a run, in the order in which their calls are counted. -/
def requests (ch : Channel) : List Action → List Request
  | [] => []
  | a :: as => (ch.request? a).toList ++ (ch.step a).requests as

/-- A request for a service was made in a run and was granted. Closing is never refused, though it
may report a failure. -/
def Grants (ch : Channel) (actions : List Action) (s : Service) : Prop :=
  ∃ (i : Nat) (r : Request) (result : Except ChannelError Unit),
    (ch.requests actions)[i]? = some r ∧ r.service? = some s ∧
      (ch.run actions).calls[i]? = some (.returned result) ∧ (result = .ok () ∨ s = .closing)

/-! ## One call -/

/-- How the call of a request stands. -/
inductive Serves (ch : Channel) (r : Request) : Call → Prop where
  | waiting {c : Call} (hn : c.isServed = false) (h : c.service? = r.service?) : Serves ch r c
  | served {c : Call} (hc : c.isServed = true) (h : ∀ s, r.service? = some s → ch.has s = true)
      (hr : c.mayReport = true → r.service? = some .closing) : Serves ch r c
  | refused {e : ChannelError} (h : r.service? ≠ some .closing)
      (hn : (Call.returned (.error e)).isServed = false) : Serves ch r (.returned (.error e))

namespace Serves

theorem begin (ch : Channel) (r : Request) : Serves ch r r.call := by
  cases r <;> exact .waiting rfl rfl

theorem mono (h : Serves ch r c) (hs : ∀ s, ch.has s = true → ch'.has s = true) :
    Serves ch' r c := by
  cases h with
  | waiting hn h => exact .waiting hn h
  | served hc h hr => exact .served hc (fun s hr => hs s (h s hr)) hr
  | refused h hn => exact .refused h hn

theorem service (h : Serves ch r c) (hc : c.service? = some s) : r.service? = some s := by
  cases h with
  | waiting _ h => exact h.symm.trans hc
  | served hs =>
    unfold Call.service? at hc
    split at hc <;> first | cases hs | cases hc
  | refused => cases hc

/-- The call of a request that was neither served nor refused is still to serve it. -/
theorem unserved (h : Serves ch r c) (hn : c.isServed = false) (hr : c.isReturned = false) :
    c.service? = r.service? := by
  cases h with
  | waiting _ h => exact h
  | served hc =>
    rw [hn] at hc
    cases hc
  | refused => cases hr

/-- A request that was served stays so. -/
theorem keep (h : Serves ch r c) (hc : c.isServed = true) (hc' : c'.isServed = true)
    (hs : ∀ s, ch.has s = true → ch'.has s = true)
    (hr : c'.mayReport = true → c.mayReport = true) : Serves ch' r c' := by
  cases h with
  | served _ h hf => exact .served hc' (fun s hq => hs s (h s hq)) fun hm => hf (hr hm)
  | waiting hn | refused _ hn =>
    rw [hn] at hc
    cases hc

theorem has (h : Serves ch r c) (hc : c.isServed = true) (hs : r.service? = some s) :
    ch.has s = true := by
  cases h with
  | served _ h => exact h s hs
  | waiting hn | refused _ hn =>
    rw [hn] at hc
    cases hc

/-- The answer to a request for a service tells whether it was served. -/
theorem served_iff {result : Except ChannelError Unit} (h : Serves ch r (.returned result))
    (hs : r.service? = some s) :
    (Call.returned result).isServed = true ↔ result = .ok () ∨ s = .closing := by
  constructor
  · intro hc
    match result with
    | .ok () => exact .inl rfl
    | .error e =>
      right
      cases h with
      | waiting hn | refused _ hn =>
        rw [hn] at hc
        cases hc
      | served _ _ hr =>
        cases e with
        | close => exact Option.some.inj (hs.symm.trans (hr rfl))
        | _ => cases hc
  · rintro (rfl | rfl)
    · rfl
    · cases h with
      | waiting _ hq =>
        rw [hs] at hq
        cases hq
      | served hc => exact hc
      | refused hne => exact (hne hs).elim

end Serves

theorem WiringMove.has_eq {w w' : Wiring} (m : WiringMove ch w ch' w') (s : Service) :
    ch'.has s = ch.has s := by
  cases m <;> cases s <;> rfl

/-- A call brings about nothing but its own service. -/
theorem CallMove.has_cases (m : CallMove ch c ch' c') (s : Service) :
    ch'.has s = ch.has s ∨ c.service? = some s ∧ c'.isServed = true ∧ ch'.has s = true := by
  cases m with
  | spawnAcceptor | setCommands | setEvents | close =>
    cases s <;> first | exact .inl rfl | exact .inr ⟨rfl, rfl, rfl⟩
  | wire m | wired m => exact .inl (m.has_eq s)
  | _ => exact .inl (by cases s <;> rfl)

theorem CallMove.still_has (m : CallMove ch c ch' c') (h : ch.has s = true) :
    ch'.has s = true := by
  rcases m.has_cases s with he | ⟨-, -, he⟩
  · exact he.trans h
  · exact he

theorem finishClosing_isServed (ch : Channel) (dropping : Bool)
    (releases : List (Except IoError Unit)) :
    (ch.finishClosing dropping releases).2.isServed = true := by
  unfold finishClosing
  cases CloseError.aggregate releases <;> cases dropping <;> rfl

theorem CallMove.still_served (m : CallMove ch c ch' c') (h : c.isServed = true) :
    c'.isServed = true := by
  cases m with
  | giveBack hr =>
    rw [← hr]
    exact finishClosing_isServed ..
  | returned => exact h
  | _ => first | rfl | cases h

/-- A step of a call leaves it waiting, serves its request or refuses it. -/
theorem CallMove.serves (m : CallMove ch c ch' c') (h : Serves ch r c) : Serves ch' r c' := by
  have keep (hc : c.isServed = true) (hr : c'.mayReport = true → c.mayReport = true) :=
    h.keep hc (m.still_served hc) (fun _ => m.still_has) hr
  cases m with
  | connect | takeListener | announceAccepting | bindCommands | bindEvents | disable =>
    exact .waiting rfl (h.unserved rfl rfl)
  | connectClosed | alreadyAccepting | bindCommandsClosed | commandsBound | bindEventsClosed
  | eventsBound =>
    refine .refused ?_ rfl
    rw [← h.unserved rfl rfl]
    nofun
  | spawnAcceptor | setCommands | setEvents =>
    refine .served rfl (fun s hs => ?_) nofun
    rw [← h.unserved rfl rfl] at hs
    cases hs
    rfl
  | disableUnbound | cancel =>
    refine .served rfl (fun s hs => ?_) nofun
    rw [← h.unserved rfl rfl] at hs
    cases hs
  | close =>
    refine .served rfl (fun s hs => ?_) fun _ => (h.unserved rfl rfl).symm
    rw [← h.unserved rfl rfl] at hs
    cases hs
    rfl
  | alreadyClosed hclosed =>
    refine .served rfl (fun s hs => ?_) nofun
    rw [← h.unserved rfl rfl] at hs
    cases hs
    exact hclosed
  | reserve | reserveRelay | relayOutput | opens | arrives | surplus | wire | wired =>
    exact keep rfl nofun
  | announceClosed | shutNobody | shutWorker | shutFailed | releaseListener | abortAcceptor
  | abortStreams | abortConsole | giveBack => exact keep rfl fun _ => rfl
  | returned => exact h

/-! ## All calls -/

/-- Nothing but what the owner does changes the calls, or what a channel provides. -/
theorem Move.of_others (m : Move ch a ch') (ha : a.byOwner = false) :
    ch'.calls = ch.calls ∧ ∀ s, ch'.has s = ch.has s := by
  cases m with
  | acceptor m =>
    obtain ⟨hne, hne', hc, -⟩ := m.ne_absent
    refine ⟨hc, fun s => ?_⟩
    cases s with
    | accepting => rw [has, has, decide_eq_true hne, decide_eq_true hne']
    | _ => cases m <;> rfl
  | verifier m =>
    refine ⟨m.calls_eq, fun s => ?_⟩
    cases m with
    | wire _ m | wired _ m =>
      refine .trans ?_ (m.has_eq s)
      cases s <;> rfl
    | _ => cases s <;> rfl
  | consumer m => cases m <;> exact ⟨rfl, fun s => by cases s <;> rfl⟩
  | producer m => cases m <;> exact ⟨rfl, fun s => by cases s <;> rfl⟩
  | relay m => cases m <;> exact ⟨rfl, fun s => by cases s <;> rfl⟩
  | begin | call => cases ha
  | _ => exact ⟨rfl, fun s => by cases s <;> rfl⟩

/-- The requests of a run, and the calls that were begun for them. -/
structure Answered (rs : List Request) (ch : Channel) : Prop where
  length : rs.length = ch.calls.length
  serves : ∀ (i : Nat) (r : Request) (c : Call),
    rs[i]? = some r → ch.calls[i]? = some c → Serves ch r c
  served : ∀ s, ch.has s = true → ∃ (i : Nat) (r : Request) (c : Call),
    rs[i]? = some r ∧ ch.calls[i]? = some c ∧ r.service? = some s ∧ c.isServed = true

namespace Answered

theorem same (h : Answered rs ch) (hc : ch'.calls = ch.calls) (hs : ∀ s, ch'.has s = ch.has s) :
    Answered rs ch' where
  length := by rw [hc]; exact h.length
  serves i r c hr hi := by
    rw [hc] at hi
    exact (h.serves i r c hr hi).mono fun s hx => (hs s).trans hx
  served s hx := by
    rw [hc]
    exact h.served s ((hs s).symm.trans hx)

theorem begin (h : Answered rs ch) (r : Request) :
    Answered (rs ++ [r]) { ch with calls := ch.calls ++ [r.call] } where
  length := by simp [h.length]
  serves i r' c hr hi := by
    have hmono (s : Service) (hs : ch.has s = true) :
        Channel.has { ch with calls := ch.calls ++ [r.call] } s = true := by
      cases s <;> exact hs
    rcases getElem?_concat_cases hr with hr | ⟨rfl, rfl⟩
    · rw [List.getElem?_append_left (h.length ▸ (List.getElem?_eq_some_iff.1 hr).1)] at hi
      exact (h.serves i r' c hr hi).mono hmono
    · rw [h.length, List.getElem?_concat_length] at hi
      cases hi
      exact .begin _ r'
  served s hs := by
    have hs : ch.has s = true := by cases s <;> exact hs
    obtain ⟨i, r', c, hr, hi, hx⟩ := h.served s hs
    refine ⟨i, r', c, ?_, ?_, hx⟩
    · rw [List.getElem?_append_left (List.getElem?_eq_some_iff.1 hr).1]
      exact hr
    · rw [List.getElem?_append_left (List.getElem?_eq_some_iff.1 hi).1]
      exact hi

theorem call (h : Answered rs ch) {i : Nat} (hi : ch.calls[i]? = some c)
    (m : CallMove ch c ch' c') : Answered rs { ch' with calls := ch.calls.set i c' } where
  length := by simp [h.length]
  serves j r d hr hj := by
    rcases getElem?_set_cases hj with ⟨rfl, rfl⟩ | ⟨-, hj⟩
    · exact (m.serves (h.serves i r c hr hi)).mono fun s hs => by cases s <;> exact hs
    · refine (h.serves j r d hr hj).mono fun s hs => ?_
      have hs := m.still_has hs
      cases s <;> exact hs
  served s hs := by
    have hs : ch'.has s = true := by cases s <;> exact hs
    have hlt : i < ch.calls.length := (List.getElem?_eq_some_iff.1 hi).1
    -- somebody brought it about before, or this call does so now
    rcases m.has_cases s with he | ⟨hc, hc', -⟩
    · obtain ⟨j, r, d, hr, hj, hrs, hd⟩ := h.served s (he.symm.trans hs)
      by_cases hij : i = j
      · subst hij
        obtain rfl : c = d := Option.some.inj (hi.symm.trans hj)
        exact ⟨i, r, c', hr, List.getElem?_set_self hlt, hrs, m.still_served hd⟩
      · exact ⟨j, r, d, hr, (List.getElem?_set_ne hij).trans hj, hrs, hd⟩
    · have hlt' : i < rs.length := h.length ▸ hlt
      have hr : rs[i]? = some rs[i] := List.getElem?_eq_getElem hlt'
      exact ⟨i, _, c', hr, List.getElem?_set_self hlt, (h.serves i _ c hr hi).service hc, hc'⟩

theorem step (h : Answered rs ch) (a : Action) :
    Answered (rs ++ (ch.request? a).toList) (ch.step a) := by
  cases a with
  | begin r =>
    cases hb : ch.canBegin r.call with
    | true => simpa [request?, Channel.step, Channel.begin, hb] using h.begin r
    | false => simpa [request?, Channel.step, Channel.begin, hb] using h
  | call i =>
    change Answered (rs ++ []) _
    rw [List.append_nil]
    cases hi : ch.calls[i]? with
    | none => simpa only [Channel.step, stepCall, hi] using h
    | some c =>
      have m := ch.callStep_move c
      have he : ch.step (.call i) =
          { (ch.callStep c).1 with calls := ch.calls.set i (ch.callStep c).2 } := by
        simp only [Channel.step, stepCall, hi, m.calls_eq]
      rw [he]
      exact h.call hi m
  | _ =>
    change Answered (rs ++ []) _
    rw [List.append_nil]
    rcases ch.step_cases _ with hs | m
    · rw [hs]
      exact h
    · obtain ⟨hc, hs⟩ := m.of_others rfl
      exact h.same hc hs

theorem run (h : Answered rs ch) (as : List Action) :
    Answered (rs ++ ch.requests as) (ch.run as) := by
  induction as generalizing rs ch with
  | nil => simpa [requests, Channel.run] using h
  | cons a as ih =>
    rw [requests, ← List.append_assoc]
    exact ih (h.step a)

theorem of_create {m : Machine} {faults : Faults} {config : Config} {fresh : SessionId}
    {port : UInt16} {shape : Json.Shape}
    (h : create m faults config fresh port shape = .ok ch) : Answered [] ch := by
  obtain ⟨descriptor, codec, rfl⟩ := create_eq h
  exact
    { length := rfl
      serves := fun i r c hr => nomatch hr
      served := fun s hs => by cases s <;> cases hs }

end Answered

/-- Once all calls have returned, a channel provides just the services for which a request was
granted. -/
theorem has_iff_grants {m : Machine} {faults : Faults} {config : Config} {fresh : SessionId}
    {port : UInt16} {shape : Json.Shape} {start : Channel}
    (hstart : create m faults config fresh port shape = .ok start) (actions : List Action)
    (hr : ∀ c ∈ (start.run actions).calls, c.isReturned = true) (s : Service) :
    (start.run actions).has s = true ↔ start.Grants actions s := by
  have h := (Answered.of_create hstart).run actions
  rw [List.nil_append] at h
  constructor
  · intro hs
    obtain ⟨i, r, c, hri, hi, hrs, hc⟩ := h.served s hs
    have hret := hr c (List.mem_of_getElem? hi)
    cases c with
    | returned result =>
      exact ⟨i, r, result, hri, hrs, hi, ((h.serves i r _ hri hi).served_iff hrs).1 hc⟩
    | _ => cases hret
  · rintro ⟨i, r, result, hri, hrs, hi, hok⟩
    have hserves := h.serves i r _ hri hi
    exact hserves.has ((hserves.served_iff hrs).2 hok) hrs

end Channel

end WorkerLink
