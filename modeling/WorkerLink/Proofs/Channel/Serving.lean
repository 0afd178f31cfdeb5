import Mathlib.Data.List.Range
import WorkerLink.Proofs.Channel.Admission
import WorkerLink.Proofs.Channel.Offering

/-!
# Any sequence of results

A loop that waits for connections can be offered any sequence of results, each as soon as it has
dealt with the one before. It takes the results up to the first error, which ends it (`upToError`).
In a channel just created, whatever results are offered (`Served`), the worker slot, the published
outcome, the state and verification follow from the first usable connection and the first error
(`accept_loop`). The connections are numbered in the order in which they came.
-/

namespace WorkerLink

/-! ## Results up to the first error -/

/-- The results up to the first error, with it. -/
def upToError : List AcceptResult → List AcceptResult
  | [] => []
  | r :: rs => if r.cause?.isSome then [r] else r :: upToError rs

theorem firstUsable_upToError (rs : List AcceptResult) :
    firstUsable (upToError rs) = firstUsable rs := by
  induction rs with
  | nil => rfl
  | cons r rs ih =>
    unfold firstUsable at ih ⊢
    cases r with
    | error cause => rfl
    | unusable l => exact ih
    | connection l => rfl

theorem firstCause_upToError (rs : List AcceptResult) :
    firstCause (upToError rs) = firstCause rs := by
  induction rs with
  | nil => rfl
  | cons r rs ih =>
    cases r with
    | error cause => rfl
    | unusable l | connection l => exact ih

/-! ## Turns of accepting -/

/-- How many turns accepting needs to deal with what it has taken. -/
def Acceptor.work : Acceptor → Nat
  | .taken _ => 4
  | .claimed _ => 3
  | .announcing _ | .failing _ => 2
  | .verifying _ | .reporting _ => 1
  | .absent | .waiting | .polling | .stopped => 0

theorem Acceptor.work_le (a : Acceptor) : a.work ≤ 4 := by cases a <;> simp [work]

namespace Channel

variable {ch ch' : Channel} {r : AcceptResult}

/-- What a turn of accepting keeps, and that it leaves one turn less to do. -/
structure Proceeds (ch ch' : Channel) : Prop where
  started : ch'.acceptor ≠ .absent
  untold : ch'.acceptorAborted = ch.acceptorAborted
  alive : ch'.acceptor.isAlive = ch.acceptor.isAlive
  backlog : ch.acceptor.isAlive = true → ch'.backlog = ch.backlog
  work : ch'.acceptor.work ≤ ch.acceptor.work - 1

theorem AcceptorMove.proceeds (m : AcceptorMove ch ch') (hp : ch.acceptor ≠ .polling)
    (hu : ch.acceptorAborted = false) : Proceeds ch ch' := by
  cases m with
  | wait ha | take ha | refuse ha | giveUp ha => exact (hp ha).elim
  | abort _ hab => cases hu.symm.trans hab
  | report ha =>
    refine ⟨nofun, rfl, ?_, fun hal => ?_, Nat.zero_le _⟩
    · rw [ha]
      rfl
    · rw [ha] at hal
      cases hal
  | wake ha | turnAway ha | claim ha | accept ha | skip ha | announce ha | verify ha
  | verifyBlind ha | fail ha =>
    refine ⟨nofun, rfl, ?_, fun _ => rfl, ?_⟩ <;> rw [ha]
    · rfl
    · simp [Acceptor.work]

/-- Only an error ends accepting; a connection is taken from those that wait. -/
theorem ReceiveMove.alive (m : ReceiveMove ch r ch') :
    ch'.acceptorAborted = ch.acceptorAborted ∧ ch'.acceptor.isAlive = r.cause?.isNone ∧
      (r.cause? = none → ch.backlog = r.link?.toList ++ ch'.backlog) := by
  cases m with
  | take hb | drop hb => exact ⟨rfl, rfl, fun _ => hb⟩
  | refuse | giveUp => exact ⟨rfl, rfl, nofun⟩

/-- Accepting that has nothing to do has dealt with what it has taken. -/
theorem work_of_idle (h : ch.acceptorStep = none) : ch.acceptor.work = 0 := by
  unfold acceptorStep at h
  cases ha : ch.acceptor with
  | absent | waiting | polling | stopped => rfl
  | taken | claimed =>
    simp only [ha] at h
    split at h <;> cases h
  | announcing | verifying | failing | reporting =>
    simp only [ha] at h
    cases h

end Channel

namespace Reception

open Channel

variable {x : Reception} {r : AcceptResult} {rs : List AcceptResult} {waiting : List LinkId}
  {s : Lifecycle} {n : Nat}

/-- A turn of the loop. -/
def turn : Offer := .action (.task .acceptor)

/-- A result, and the turns that it takes to deal with it. -/
def serve (r : AcceptResult) : List Offer := .result r :: List.replicate 4 turn

theorem run_cons (x : Reception) (o : Offer) (os : List Offer) :
    x.run (o :: os) = (x.step o).run os := rfl

theorem run_append (x : Reception) (os ps : List Offer) : x.run (os ++ ps) = (x.run os).run ps :=
  List.foldl_append

theorem proceeds_turn (hs : x.channel.acceptor ≠ .absent)
    (hu : x.channel.acceptorAborted = false) : Proceeds x.channel (x.step turn).channel := by
  rw [turn, Reception.step, act]
  split
  · rename_i hp
    exact ⟨Acceptor.noConfusion, rfl, by rw [hp]; rfl, fun _ => rfl, Nat.zero_le _⟩
  · rename_i hp
    rw [Channel.step, taskStep]
    cases hm : x.channel.acceptorStep with
    | some ch' => exact (acceptorStep_move hm).proceeds hp hu
    | none =>
      have hw : x.channel.acceptor.work ≤ x.channel.acceptor.work - 1 := by rw [work_of_idle hm]
      exact ⟨hs, rfl, rfl, fun _ => rfl, hw⟩

theorem results_turn (x : Reception) : (x.step turn).results = x.results := by
  rw [turn, Reception.step, act]
  split <;> rfl

/-! ## Serving -/

/-- A loop in whose channel nothing else happens: those in `waiting` are to be accepted, and the
state is `s` but for what the loop has done. -/
structure Serving (x : Reception) (waiting : List LinkId) (s : Lifecycle) : Prop where
  receives : x.Receives
  started : x.channel.acceptor ≠ .absent
  untold : x.channel.acceptorAborted = false
  backlog : x.channel.acceptor.isAlive = true → x.channel.backlog = waiting
  state : x.channel.state = x.channel.announced?.elim s s.advance

namespace Serving

theorem turn (h : x.Serving waiting s) : (x.step turn).Serving waiting s := by
  have hp := proceeds_turn h.started h.untold
  refine ⟨h.receives.step _, hp.started, hp.untold.trans h.untold, fun hal => ?_, ?_⟩
  · have hal := hp.alive ▸ hal
    rw [hp.backlog hal, h.backlog hal]
  · rcases h.receives.announces with ⟨ho, hs⟩ | ⟨hn, o, -, ho, hs⟩
    · exact hs.trans (h.state.trans (by rw [← ho]; rfl))
    · have hx := h.state
      rw [hn] at hx
      refine hs.trans ?_
      rw [hx]
      exact (congrArg (Option.elim · s s.advance) ho).symm

theorem turns (h : x.Serving waiting s) (n : Nat) :
    let y := x.run (List.replicate n Reception.turn)
    y.Serving waiting s ∧ y.results = x.results ∧
      y.channel.acceptor.isAlive = x.channel.acceptor.isAlive ∧
      y.channel.acceptor.work ≤ x.channel.acceptor.work - n := by
  induction n generalizing x with
  | zero => exact ⟨h, rfl, rfl, Nat.le_refl _⟩
  | succ n ih =>
    have hp := proceeds_turn h.started h.untold
    obtain ⟨hy, hresults, hal, hw⟩ := ih h.turn
    refine ⟨hy, hresults.trans x.results_turn, hal.trans hp.alive, hw.trans ?_⟩
    have hle := hp.work
    omega

theorem receive (h : x.Serving (r.link?.toList ++ waiting) s)
    (ha : x.channel.isAsking = true) :
    (x.step (.result r)).Serving waiting s ∧ (x.step (.result r)).results = x.results ++ [r] ∧
      (x.step (.result r)).channel.acceptor.isAlive = r.cause?.isNone := by
  have halive : x.channel.acceptor.isAlive = true := by
    rcases isAsking_cases ha with ha | ⟨ha, -⟩ <;> rw [ha] <;> rfl
  have hb := h.backlog halive
  have hcan : x.channel.canReceive r = true := by
    rw [canReceive, ha, Bool.true_and, hb]
    cases r.link? with
    | none => rfl
    | some l => exact decide_eq_true rfl
  have hreceives := h.receives.step (.result r)
  rw [Reception.step, if_pos hcan] at hreceives ⊢
  have m := (receive_move hcan).2
  obtain ⟨hab, hal, hwait⟩ := m.alive
  refine ⟨⟨hreceives, m.started, hab.trans h.untold, fun ht => ?_, ?_⟩, rfl, hal⟩
  · have hrest := hwait (Option.isNone_iff_eq_none.1 (hal ▸ ht))
    exact List.append_cancel_left (hrest.symm.trans hb)
  · rw [m.announced ha, m.frame.2.1, h.state]

/-- A loop that has dealt with what it has taken waits for more, unless it was ended. -/
theorem rests (h : x.Serving waiting s) (hw : x.channel.acceptor.work = 0) :
    x.channel.acceptor.isResting = true ∧
      (x.channel.acceptor.isAlive = true → x.channel.isAsking = true) ∧
      (x.channel.acceptor.isAlive = false → x.channel.acceptor = .stopped) := by
  have hs := h.started
  unfold isAsking
  cases ha : x.channel.acceptor with
  | absent => exact (hs ha).elim
  | waiting => exact ⟨rfl, fun _ => by rw [h.untold]; rfl, nofun⟩
  | polling => exact ⟨rfl, fun _ => rfl, nofun⟩
  | stopped => exact ⟨rfl, nofun, fun _ => rfl⟩
  | taken | claimed | announcing | verifying | failing | reporting =>
    rw [ha] at hw
    cases hw

theorem serve (h : x.Serving (r.link?.toList ++ waiting) s) (ha : x.channel.isAsking = true) :
    let y := x.run (serve r)
    y.Serving waiting s ∧ y.results = x.results ++ [r] ∧
      y.channel.acceptor.isResting = true ∧ (r.cause? = none → y.channel.isAsking = true) ∧
      (r.cause? ≠ none → y.channel.acceptor = .stopped) := by
  have hrun : x.run (Reception.serve r) =
      (x.step (.result r)).run (List.replicate 4 Reception.turn) := x.run_cons ..
  obtain ⟨hx, hresults, halive⟩ := h.receive ha
  obtain ⟨hy, hr, hal, hw⟩ := hx.turns 4
  rw [← hrun] at hy hr hal hw
  have hle := (x.step (.result r)).channel.acceptor.work_le
  obtain ⟨hrest, hask, hstop⟩ := hy.rests (by omega)
  refine ⟨hy, hr.trans hresults, hrest, fun hc => hask ?_, fun hc => hstop ?_⟩
  · rw [hal, halive, hc]
    rfl
  · obtain ⟨cause, hc⟩ := Option.ne_none_iff_exists'.1 hc
    rw [hal, halive, hc]
    rfl

end Serving

/-! ## Whole sequences -/

/-- A loop that has ended takes nothing more. -/
theorem run_stopped (h : x.channel.acceptor = .stopped) (rs : List AcceptResult) :
    x.run (rs.flatMap serve) = x := by
  have hresult (r : AcceptResult) : x.step (.result r) = x := by
    have hcan : x.channel.canReceive r = false := by rw [canReceive, isAsking, h, Bool.false_and]
    rw [Reception.step, hcan]
    rfl
  have hturn : x.step turn = x := by
    have hp : x.channel.acceptor ≠ .polling := fun hn => by cases h.symm.trans hn
    have hidle : x.channel.acceptorStep = none := by rw [acceptorStep, h]
    obtain ⟨hpub, hver⟩ := idle_of_acceptorStep hidle
    rw [turn, Reception.step, act, if_neg hp, Channel.step, taskStep, hidle, hpub,
      hver, Option.toList_none, List.append_nil]
    rfl
  have hturns (n : Nat) : x.run (List.replicate n turn) = x := by
    induction n with
    | zero => rfl
    | succ n ih => rw [List.replicate_succ, run_cons, hturn, ih]
  induction rs with
  | nil => rfl
  | cons r rs ih =>
    rw [List.flatMap_cons, run_append, serve, run_cons, hresult, hturns, ih]

/-- A loop that waits for connections takes all results up to the first error. -/
theorem run_serve (h : x.Serving (rs.filterMap AcceptResult.link?) s)
    (ha : x.channel.isAsking = true) :
    let y := x.run (rs.flatMap serve)
    (∃ waiting, y.Serving waiting s) ∧ y.results = x.results ++ upToError rs ∧
      y.channel.acceptor.isResting = true ∧ (firstCause rs = none → y.channel.isAsking = true) := by
  induction rs generalizing x with
  | nil =>
    have hrest : x.channel.acceptor.isResting = true := by
      rcases isAsking_cases ha with ha | ⟨ha, -⟩ <;> rw [ha] <;> rfl
    exact ⟨⟨_, h⟩, (List.append_nil _).symm, hrest, fun _ => ha⟩
  | cons r rs ih =>
    have hlinks : (r :: rs).filterMap AcceptResult.link? =
        r.link?.toList ++ rs.filterMap AcceptResult.link? := by
      cases r <;> rfl
    rw [hlinks] at h
    obtain ⟨hy, hresults, hrest, hask, hstop⟩ := h.serve ha
    rw [List.flatMap_cons, run_append]
    cases hc : r.cause? with
    | some cause =>
      rw [run_stopped (hstop (by rw [hc]; nofun))]
      refine ⟨⟨_, hy⟩, ?_, hrest, fun hn => ?_⟩
      · rw [hresults, upToError, hc]
        rfl
      · rw [firstCause, List.findSome?_cons, hc] at hn
        cases hn
    | none =>
      obtain ⟨hz, hresults', hrest', hask'⟩ := ih hy (hask hc)
      refine ⟨hz, ?_, hrest', fun hn => hask' ?_⟩
      · rw [hresults', hresults, List.append_assoc, upToError, hc]
        rfl
      · rwa [firstCause, List.findSome?_cons, hc] at hn

/-- Where neither accepting nor verification takes a step, nothing is offered. -/
theorem run_actions (x : Reception) {as : List Action}
    (h : ∀ a ∈ as, a ≠ .task .acceptor ∧ a ≠ .task .verifier) :
    x.run (as.map .action) = { x with channel := x.channel.run as } := by
  induction as generalizing x with
  | nil => rfl
  | cons a as ih =>
    obtain ⟨ha, hv⟩ := h a List.mem_cons_self
    have hstep : x.step (.action a) = { x with channel := x.channel.step a } := act_of_ne x ha hv
    rw [List.map_cons, run_cons, hstep, ih _ fun b hb => h b (List.mem_cons_of_mem _ hb)]
    rfl

end Reception

/-! ## A channel just created -/

/-- The owner lets the channel accept connections, and clients connect. -/
def opening (n : Nat) : List Action :=
  [.begin .connect, .call 0, .call 0, .call 0, .call 0] ++ List.replicate n .join

namespace Channel

variable {ch start : Channel}

theorem run_joins (h : ch.listener ≠ .nobody) (n : Nat) :
    ch.run (List.replicate n .join) = { ch with
      links := ch.links ++ List.replicate n {}
      backlog := ch.backlog ++ List.range' ch.links.length n } := by
  induction n generalizing ch with
  | zero => simp [run]
  | succ n ih =>
    have hjoin : ch.step .join = { ch with
        links := ch.links ++ [{}], backlog := ch.backlog ++ [ch.links.length] } := if_neg h
    have hrun := @ih (ch.step .join) (by rw [hjoin]; exact h)
    rw [List.replicate_succ]
    refine hrun.trans ?_
    rw [hjoin]
    simp [List.range'_succ, List.replicate_succ]

end Channel

/-- How accepting comes out that was offered a sequence of results. -/
structure Served (rs : List AcceptResult) (x : Reception) : Prop where
  results : x.results = upToError rs
  slot : x.channel.slot = firstUsable rs
  published : x.published = (outcomeOf (firstUsable rs) (firstCause rs)).toList
  verifications : x.verifications = (firstUsable rs).isSome.toNat
  shut : ∀ r ∈ upToError rs, ∀ l, r.link? = some l → firstUsable rs ≠ some l →
    (x.channel.link l).IsShut ∧ l ∉ x.channel.arrivals
  state : x.channel.state =
    ((outcomeOf (firstUsable rs) (firstCause rs)).map AcceptOutcome.state).getD .accepting
  asking : firstCause rs = none → x.channel.isAsking = true
  stopped : firstCause rs ≠ none → x.channel.acceptor = .stopped

section Created

variable {m : Machine} {faults : Faults} {config : Config} {fresh : SessionId} {port : UInt16}
  {shape : Json.Shape} {start : Channel} {rs : List AcceptResult}

theorem run_opening (h : Channel.create m faults config fresh port shape = .ok start) (n : Nat) :
    start.run (opening n) = { start with
      listener := .acceptor
      state := .accepting
      acceptor := .waiting
      calls := [.returned (.ok ())]
      links := List.replicate n {}
      backlog := List.range n } := by
  have hcalls : start.run [.begin .connect, .call 0, .call 0, .call 0, .call 0] = { start with
      listener := .acceptor
      state := .accepting
      acceptor := .waiting
      calls := [.returned (.ok ())] } := by
    obtain ⟨descriptor, codec, rfl⟩ := Channel.create_eq h
    rfl
  have hempty : start.links = [] ∧ start.backlog = [] := by
    obtain ⟨descriptor, codec, rfl⟩ := Channel.create_eq h
    exact ⟨rfl, rfl⟩
  rw [Channel.run] at hcalls
  rw [opening, Channel.run, List.foldl_append, hcalls]
  refine (Channel.run_joins (fun hl => by cases hl) n).trans ?_
  rw [hempty.1, hempty.2, List.range_eq_range']
  rfl

theorem Reception.serving_opening
    (h : Channel.create m faults config fresh port shape = .ok start) (n : Nat) :
    let x := Reception.run { channel := start } ((opening n).map .action)
    x.Serving (List.range n) .accepting ∧ x.channel.isAsking = true ∧ x.results = [] := by
  have hreceives := (Receives.of_create h).run ((opening n).map .action)
  have hactions : ∀ a ∈ opening n, a ≠ .task .acceptor ∧ a ≠ .task .verifier := fun a ha => by
    simp only [opening, List.mem_append, List.mem_cons, List.not_mem_nil, or_false,
      List.mem_replicate] at ha
    rcases ha with (rfl | rfl | rfl | rfl | rfl) | ⟨-, rfl⟩ <;> exact ⟨nofun, nofun⟩
  rw [run_actions _ hactions, run_opening h] at hreceives ⊢
  obtain ⟨descriptor, codec, rfl⟩ := Channel.create_eq h
  exact ⟨⟨hreceives, nofun, rfl, fun _ => rfl, rfl⟩, rfl, rfl⟩

theorem Served.of_create (h : Channel.create m faults config fresh port shape = .ok start)
    {n : Nat} (hrs : rs.filterMap AcceptResult.link? = List.range n) :
    Served rs (Reception.run { channel := start }
      ((opening n).map .action ++ rs.flatMap Reception.serve)) := by
  obtain ⟨hserving, hask, hnone⟩ := Reception.serving_opening h n
  rw [← hrs] at hserving
  rw [Reception.run_append]
  obtain ⟨⟨waiting, hy⟩, hresults, hrest, hasking⟩ := Reception.run_serve hserving hask
  rw [hnone, List.nil_append] at hresults
  have hres := hy.receives.resolved hrest
  have hstate := hy.state
  rw [Channel.announced_of_isResting hrest, hres.accepted, hresults, firstUsable_upToError,
    firstCause_upToError] at hstate
  exact {
    results := hresults
    slot := by rw [hres.slot, hresults, firstUsable_upToError]
    published := by
      rw [hres.published, hresults, firstUsable_upToError, firstCause_upToError]
    verifications := by rw [hres.verifications, hresults, firstUsable_upToError]
    shut := fun r hr l hl hw =>
      hres.shut r (hresults ▸ hr) l hl (by rwa [hresults, firstUsable_upToError])
    state := by
      rw [hstate]
      cases outcomeOf (firstUsable rs) (firstCause rs) with
      | none => rfl
      | some o => cases o <;> rfl
    asking := hasking
    stopped := fun hc => hres.stopped (by rwa [hresults, firstCause_upToError]) }

/-- Whatever the loop of a channel is offered, and whatever else happens meanwhile, the first
connection that could be taken over before the first error is the worker, the outcome says so or
gives the error, and verification is started for the worker alone (`Received`). What the loop does
in a run of the channel is an instance of this, and any sequence of results can be offered to it. -/
theorem accept_loop (h : Channel.create m faults config fresh port shape = .ok start) :
    (∀ os, (Reception.run { channel := start } os).Received) ∧
      (∀ as, ∃ os, (Reception.run { channel := start } os).channel = start.run as) ∧
      ∀ rs n, rs.filterMap AcceptResult.link? = List.range n →
        Served rs (Reception.run { channel := start }
          ((opening n).map .action ++ rs.flatMap Reception.serve)) :=
  ⟨fun os => ((Reception.Receives.of_create h).run os).received,
    Reception.exists_offers { channel := start }, fun _ _ => Served.of_create h⟩

end Created

/-- A connection that cannot be taken over, the worker, another client, an error, and one more. -/
def exampleResults : List AcceptResult :=
  [.unusable 0, .connection 1, .connection 2, .error (.os Errno.tooManyOpen), .connection 3]

theorem accept_loop_of_exampleResults :
    let x := Reception.run { channel := Channel.exampleStart }
      ((opening 4).map .action ++ exampleResults.flatMap Reception.serve)
    x.channel.slot = some 1 ∧ x.published = [.accepted 1] ∧ x.verifications = 1 ∧
      (x.channel.link 2).IsShut ∧ x.channel.state = .accepted ∧ x.channel.acceptor = .stopped := by
  intro x
  have hserved : Served exampleResults x :=
    (accept_loop Channel.create_exampleStart).2.2 exampleResults 4 rfl
  have hmem : .connection 2 ∈ upToError exampleResults := by
    simp [exampleResults, upToError, AcceptResult.cause?]
  exact ⟨hserved.slot, hserved.published, hserved.verifications,
    (hserved.shut (.connection 2) hmem 2 rfl (by decide)).1, hserved.state,
    hserved.stopped (by decide)⟩

end WorkerLink
