import WorkerLink.Proofs.Channel.Omitting
import WorkerLink.Proofs.Channel.Requests
import WorkerLink.Proofs.Channel.Ending
import WorkerLink.Proofs.Channel.Admission

/-!
# Requests that the channel refuses

A request for what the channel provides already, or that is made of a closed channel, is refused; so
is the slower one of two registrations that are made at once. Its call returns an error after two
steps, and the run goes on as if it had never been made (`refused_without_trace`).
-/

namespace WorkerLink

/-! ## What a refused call is told -/

/-- What the owner is told if a request is refused, by whether the channel is closed; `none` if such
a request is never refused. -/
def Request.refusal? (closed : Bool) : Request → Option ChannelError
  | .connect => some (if closed then .closed else .alreadyAccepting)
  | .bindCommands _ => some (if closed then .closed else .commandsBound)
  | .bindEvents _ => some (if closed then .closed else .eventsBound)
  | .disable | .close | .drop => none

namespace Call

/-- Whether a call has done nothing yet and may still be refused, or was refused. -/
def isFutile : Call → Bool
  | .connect | .connectListener | .bindCommands _ | .setCommands _ | .bindEvents _ | .setEvents _
  | .returned (.error (.illegalState _)) => true
  | _ => false

/-- Whether a call has the worker's output to relay. -/
def hasOutput : Call → Bool
  | .bindEvents output | .setEvents output | .reserve output => output
  | .relayOutput => true
  | _ => false

/-- What a call looks for in the channel, and what it is told if that is there already. -/
def looksFor? : Call → Option (Service × ChannelError)
  | .connectListener => some (.accepting, .alreadyAccepting)
  | .setCommands _ => some (.commands, .commandsBound)
  | .setEvents _ => some (.events, .eventsBound)
  | _ => none

end Call

namespace Channel

variable {ch ch' X : Channel} {a : Action} {as : List Action} {c c' d : Call} {e : ChannelError}
  {i n : Nat} {r : Request} {s : Service}

/-- Whether a request is refused, for what has happened before it is made. -/
def refuses (ch : Channel) : Request → Bool
  | .connect => ch.closed || ch.has .accepting
  | .bindCommands _ => ch.closed || ch.has .commands
  | .bindEvents _ => ch.closed || ch.has .events
  | .disable | .close | .drop => false

/-- A request is rejected in a run: it is refused for what has happened before, or another one that
is under way turns out to be faster, so that its call returns an error sooner or later. -/
def Rejects (ch : Channel) (r : Request) (as : List Action) : Prop :=
  ch.refuses r = true ∨ ∃ later reason,
    (ch.run (.begin r :: as ++ later)).calls[ch.calls.length]? =
      some (.returned (.error (.illegalState reason)))

/-! ## A refused call leaves the channel alone -/

/-- A call that is refused in the end has not touched the channel. -/
theorem CallMove.futile (m : CallMove ch c ch' c') (h : c'.isFutile = true) :
    c.isFutile = true ∧ (ch' = ch ∨ ∃ q, c.queue? = some q ∧ ch' = ch.refuseQueue q) := by
  cases m with
  | connect | connectClosed | alreadyAccepting | bindCommands | bindEvents | bindEventsClosed
  | eventsBound => exact ⟨rfl, .inl rfl⟩
  | bindCommandsClosed | commandsBound => exact ⟨rfl, .inr ⟨_, rfl, rfl⟩⟩
  | returned => exact ⟨h, .inl rfl⟩
  | @giveBack dropping releases result hr =>
    have hserved := finishClosing_isServed ch dropping releases
    rw [hr] at hserved
    match result with
    | .ok () => cases h
    | .error (.illegalState _) => cases hserved
  | _ => cases h

theorem idles_of_futile (hi : X.calls[i]? = some c) (hd : (X.run as).calls[i]? = some d)
    (hf : d.isFutile = true) : X.Idles i as ∧ c.isFutile = true := by
  induction as generalizing X c with
  | nil =>
    obtain rfl : c = d := Option.some.inj (hi.symm.trans hd)
    exact ⟨trivial, hf⟩
  | cons a as ih =>
    by_cases ha : a = .call i
    · subst ha
      obtain ⟨hidle, hc⟩ := ih (calls_stepCall hi) hd
      obtain ⟨hfutile, hspares⟩ := (X.callStep_move c).futile hc
      refine ⟨⟨fun _ c' hc' => ?_, hidle⟩, hfutile⟩
      obtain rfl : c = c' := Option.some.inj (hi.symm.trans hc')
      exact hspares
    · obtain ⟨hidle, hc⟩ := ih (calls_step_of_ne hi ha) hd
      exact ⟨⟨fun he => (ha he).elim, hidle⟩, hc⟩

/-! ## What a refused call returns -/

/-- What a channel provides it goes on providing. -/
theorem still_has_step (a : Action) (h : ch.has s = true) : (ch.step a).has s = true := by
  rcases ch.step_cases a with hs | m
  · rwa [hs]
  · cases ha : a.byOwner with
    | false => rw [(m.of_others ha).2, h]
    | true =>
      revert m
      generalize ch.step a = ch'
      intro m
      cases m with
      | begin => cases s <;> exact h
      | call _ m =>
        have hs := m.still_has h
        cases s <;> exact hs
      | client => cases s <;> exact h
      | _ => cases ha

/-- How the call of a request stands that is told `e` if it is refused: if it is bound to be, it has
been after `n` of its steps. -/
inductive Asks (ch : Channel) (e : ChannelError) (bound : Prop) : Nat → Call → Prop where
  | begun {r : Request} (he : r.refusal? ch.closed = some e) (h : bound → ch.refuses r = true) :
    Asks ch e bound 2 r.call
  | looking {c : Call} {s : Service} (hc : c.looksFor? = some (s, e))
      (h : bound → ch.has s = true) : Asks ch e bound 1 c
  | refused {n : Nat} : Asks ch e bound n (.returned (.error e))
  | other {n : Nat} {c : Call} (hc : c.isFutile = false) (hn : ¬ bound) : Asks ch e bound n c

namespace Asks

variable {bound : Prop}

/-- A step of the call itself. -/
theorem own (h : Asks ch e bound n c) (hc : ch.Closes) (m : CallMove ch c ch' c') :
    Asks ch' e bound (n - 1) c' := by
  cases h with
  | @begun r he h =>
    cases r with
    | connect =>
      cases m with
      | connect ho =>
        rw [ho] at he
        cases he
        exact .looking rfl fun hb => by simpa [refuses, ho] using h hb
      | connectClosed hcl =>
        rw [hcl] at he
        obtain rfl : ChannelError.closed = e := Option.some.inj he
        exact .refused
    | bindCommands q =>
      cases m with
      | bindCommands ho =>
        rw [ho] at he
        cases he
        exact .looking rfl fun hb => by simpa [refuses, ho] using h hb
      | bindCommandsClosed hcl =>
        rw [hcl] at he
        obtain rfl : ChannelError.closed = e := Option.some.inj he
        exact .refused
    | bindEvents output =>
      cases m with
      | bindEvents ho =>
        rw [ho] at he
        cases he
        exact .looking rfl fun hb => by simpa [refuses, ho] using h hb
      | bindEventsClosed hcl =>
        rw [hcl] at he
        obtain rfl : ChannelError.closed = e := Option.some.inj he
        exact .refused
    | disable | close | drop => cases he
  | looking hl h =>
    cases m with
    | takeListener hown =>
      cases hl
      refine .other rfl fun hb => ?_
      have hacc : ch.acceptor ≠ .absent := by simpa [has] using h hb
      exact hc.inv.accepts.listener_ne_owner hacc hown
    | setCommands hn =>
      cases hl
      refine .other rfl fun hb => ?_
      have hs := h hb
      rw [has, hn] at hs
      cases hs
    | setEvents hn =>
      cases hl
      refine .other rfl fun hb => ?_
      have hs := h hb
      rw [has, hn] at hs
      cases hs
    | alreadyAccepting | commandsBound | eventsBound =>
      cases hl
      exact .refused
    | _ => cases hl
  | refused =>
    cases m
    exact .refused
  | other hf hn =>
    refine .other ?_ hn
    cases hf' : c'.isFutile with
    | false => rfl
    | true =>
      rw [(m.futile hf').1] at hf
      cases hf

theorem same (h : Asks ch e bound n c) (hc : ch'.closed = ch.closed)
    (hs : ∀ s, ch'.has s = ch.has s) : Asks ch' e bound n c := by
  cases h with
  | @begun r he h =>
    refine .begun (hc.symm ▸ he) fun hb => ?_
    have hr := h hb
    cases r with
    | connect | bindCommands | bindEvents => simpa only [refuses, hc, hs] using hr
    | disable | close | drop => cases hr
  | looking hl h => exact .looking hl fun hb => (hs _).trans (h hb)
  | refused => exact .refused
  | other hf hn => exact .other hf hn

/-- While a call that may be refused is under way, nobody closes the channel. -/
theorem closed_eq (he : r.refusal? ch.closed = some e) (hx : ch.Excludes)
    (hi : ch.calls[i]? = some r.call) (a : Action) (ha : a ≠ .call i) :
    (ch.step a).closed = ch.closed := by
  rcases ch.step_cases a with hs | m
  · rw [hs]
  · cases hc : ch.closed with
    | true => exact m.closed_of_closed hc
    | false =>
      cases hc' : (ch.step a).closed with
      | false => rfl
      | true =>
        -- whoever closes the channel would be the only one under way
        obtain ⟨j, dropping, rfl, hj, -⟩ := m.closes hc hc'
        have hret : r.call.isReturned = false := by cases r <;> rfl
        obtain rfl : j = i := hx j i _ _ hj hi rfl hret
        exact (ha rfl).elim

/-- Any other step. -/
theorem others (h : Asks ch e bound n c) (hx : ch.Excludes) (hi : ch.calls[i]? = some c)
    (ha : a ≠ .call i) : Asks (ch.step a) e bound n c := by
  cases h with
  | @begun r he h =>
    have hclosed := closed_eq he hx hi a ha
    refine .begun (hclosed.symm ▸ he) fun hb => ?_
    have hr := h hb
    cases r with
    | connect | bindCommands | bindEvents =>
      simp only [refuses, hclosed, Bool.or_eq_true] at hr ⊢
      exact hr.imp_right (still_has_step a)
    | disable | close | drop => cases hr
  | looking hc h => exact .looking hc fun hb => still_has_step a (h hb)
  | refused => exact .refused
  | other hc hn => exact .other hc hn

/-- A call in a run: after so many of its steps it has been refused, if it is bound to be. -/
theorem run (h : Asks ch e bound n c) (hc : ch.Closes) (hi : ch.calls[i]? = some c)
    (as : List Action) : ∃ c', (ch.run as).calls[i]? = some c' ∧
      Asks (ch.run as) e bound (n - as.countP (·.goesOn i)) c' := by
  obtain ⟨c', hc', -, hasks⟩ := run_call
    (P := fun ch n c => ch.Closes ∧ Asks ch e bound n c)
    (fun {ch n c} hi hp => by
      refine ⟨hp.1.run [.call i], ?_⟩
      simp only [Channel.step, stepCall, hi]
      exact (hp.2.own hp.1 (ch.callStep_move c)).same rfl fun s => by cases s <;> rfl)
    (fun {ch n c a} hi hp ha => ⟨hp.1.run [a], hp.2.others hp.1.excludes hi ha⟩)
    hi ⟨hc, h⟩ as
  exact ⟨c', hc', hasks⟩

end Asks

theorem isFutile_of_refuses (h : ch.refuses r = true) : r.call.isFutile = true := by
  cases r with
  | connect | bindCommands | bindEvents => rfl
  | disable | close | drop => cases h

theorem exists_refusal (h : r.call.isFutile = true) (closed : Bool) :
    ∃ reason, r.refusal? closed = some (.illegalState reason) := by
  cases r with
  | connect | bindCommands | bindEvents => cases closed <;> exact ⟨_, rfl⟩
  | disable | close | drop => cases h

/-- A call that is bound to be refused has done nothing yet. -/
theorem Asks.isFutile {bound : Prop} {reason : String}
    (h : Asks ch (.illegalState reason) bound n c) (hb : bound) : c.isFutile = true := by
  cases h with
  | begun _ h => exact isFutile_of_refuses (h hb)
  | @looking c s hc =>
    cases c with
    | connectListener | setCommands | setEvents => rfl
    | _ => cases hc
  | refused => rfl
  | other _ hn => exact (hn hb).elim

/-- The call of a request that is rejected leaves the channel alone, and returns an error after two
steps. -/
theorem Rejects.answer (h : ch.Rejects r as) (hc : ch.Closes)
    (hb : ch.canBegin r.call = true) :
    (ch.step (.begin r)).Idles ch.calls.length as ∧ ∃ e, r.refusal? ch.closed = some e ∧
      (2 ≤ as.countP (·.goesOn ch.calls.length) →
        (ch.run (.begin r :: as)).calls[ch.calls.length]? = some (.returned (.error e))) := by
  have hstep := step_begin hb
  have hi := calls_step_begin hb
  have hbegun : (ch.step (.begin r)).Closes := hc.run [.begin r]
  have asks {reason : String} (he : r.refusal? ch.closed = some (.illegalState reason)) :
      Asks (ch.step (.begin r)) (.illegalState reason) (ch.refuses r = true) 2 r.call := by
    rw [hstep]
    exact .begun he fun hr => by cases r <;> exact hr
  have hcall : r.call.isFutile = true := by
    rcases h with hr | ⟨later, reason, hret⟩
    · exact isFutile_of_refuses hr
    · exact (idles_of_futile hi hret rfl).2
  obtain ⟨reason, he⟩ := exists_refusal hcall ch.closed
  obtain ⟨c, hc, hasks⟩ := (asks he).run hbegun hi as
  have hfutile : c.isFutile = true := by
    rcases h with hr | ⟨later, reason, hret⟩
    · exact hasks.isFutile hr
    · have hsplit : ch.run (.begin r :: as ++ later) = (ch.run (.begin r :: as)).run later :=
        List.foldl_append
      rw [hsplit] at hret
      exact (idles_of_futile hc hret rfl).2
  refine ⟨(idles_of_futile hi hc hfutile).1, _, he, fun hn => ?_⟩
  rw [Nat.sub_eq_zero_of_le hn] at hasks
  cases hasks with
  | refused => exact hc
  | other hf =>
    rw [hf] at hfutile
    cases hfutile

/-! ## The worker's output -/

/-- Nothing of the worker's output has been relayed, and nobody has it to relay. -/
structure Unheard (ch : Channel) : Prop where
  relay : ch.relay.phase = .absent
  lines : ch.lines = []
  calls : ∀ c ∈ ch.calls, c.hasOutput = false

theorem CallMove.hasOutput (m : CallMove ch c ch' c') (h : c.hasOutput = false) :
    c'.hasOutput = false := by
  cases m with
  | bindEvents | setEvents | returned => exact h
  | reserveRelay => cases h
  | _ => rfl

/-- A console relay is started by a call that has the worker's output. -/
theorem Unheard.phase (h : ch.Unheard) (m : Move ch a ch') : ch'.relay.phase = .absent := by
  cases m with
  | acceptor m => cases m <;> exact h.relay
  | verifier m =>
    cases m with
    | wire _ m | wired _ m => exact (congrArg Task.phase m.relay_eq).trans h.relay
    | _ => exact h.relay
  | consumer m => cases m <;> exact h.relay
  | producer m => cases m <;> exact h.relay
  | relay m =>
    cases m with
    | read hr | stop hr =>
      rw [h.relay] at hr
      cases hr
  | call hi m =>
    cases m with
    | wire m | wired m => exact (congrArg Task.phase m.relay_eq).trans h.relay
    | relayOutput => cases h.calls _ (List.mem_of_getElem? hi)
    | _ => exact h.relay
  | _ => exact h.relay

theorem Unheard.keeps (h : ch.Unheard) (m : Move ch a ch') (ha : a ≠ .begin (.bindEvents true)) :
    ch'.Unheard where
  relay := h.phase m
  lines := by
    by_cases hr : a = .task .relay
    · subst hr
      cases m with
      | relay m =>
        cases m with
        | read hr | stop hr =>
          rw [h.relay] at hr
          cases hr
      | client hl => cases hl
    · rw [m.lines_eq hr, h.lines]
  calls c hm := by
    have hcalls := m.callsMove
    cases hcalls with
    | same he => exact h.calls c (he ▸ hm)
    | @begin r =>
      rcases List.mem_append.1 hm with hm | hm
      · exact h.calls c hm
      · rw [List.mem_singleton.1 hm]
        cases r with
        | bindEvents output =>
          cases output with
          | true => exact (ha rfl).elim
          | false => rfl
        | _ => rfl
    | call hi mc =>
      rcases List.mem_or_eq_of_mem_set hm with hm | rfl
      · exact h.calls c hm
      · exact mc.hasOutput (h.calls _ (List.mem_of_getElem? hi))

theorem Unheard.run (h : ch.Unheard) (as : List Action) (ha : .begin (.bindEvents true) ∉ as) :
    (ch.run as).Unheard := by
  induction as generalizing ch with
  | nil => exact h
  | cons a as ih =>
    rw [List.mem_cons, not_or] at ha
    refine ih ?_ ha.2
    rcases ch.step_cases a with hs | m
    · rwa [hs]
    · exact h.keeps m (Ne.symm ha.1)

/-! ## The rest of the run -/

/-- A request that is rejected leaves no trace. Its call returns the error of a closed channel if
the channel is closed, and else its own. However the run goes on, it is in everything the run in
which the request was never made, but for that call and the command queue that was given with it and
is gone; and if nobody else registered the worker's output, none of it is relayed. -/
theorem refused_without_trace {m : Machine} {faults : Faults} {config : Config}
    {fresh : SessionId} {port : UInt16} {shape : Json.Shape} {start : Channel}
    (hstart : create m faults config fresh port shape = .ok start) (before after : List Action)
    (r : Request) (hb : (start.run before).canBegin r.call = true)
    (hq : ∀ q, r = .bindCommands q →
      q ∉ (start.run before).given ∧ .begin (.bindCommands q) ∉ after)
    (hr : (start.run before).Rejects r after) :
    let ch := start.run before
    let made := ch.run (.begin r :: after)
    let unmade := ch.run ((ch.step (.begin r)).without ch.calls.length after)
    (∃ e, r.refusal? ch.closed = some e ∧ (2 ≤ after.countP (·.goesOn ch.calls.length) →
      made.calls[ch.calls.length]? = some (.returned (.error e)))) ∧
    unmade = { made with
      calls := made.calls.eraseIdx ch.calls.length, queues := unmade.queues } ∧
    (∀ k, r ≠ .bindCommands k → unmade.queues[k]? = made.queues[k]?) ∧
    (.begin (.bindEvents true) ∉ before ++ after →
      made.lines = [] ∧ made.relay.phase = .absent) := by
  intro ch made unmade
  have hc : ch.Closes := (Closes.of_create hstart).run before
  obtain ⟨hidle, hanswer⟩ := hr.answer hc hb
  have hlost (q : QueueId) (hl : r.call.queue? = some q) : r = .bindCommands q := by
    cases r with
    | bindCommands => cases hl; rfl
    | _ => cases hl
  have homits : Omits r.call.queue? ch.calls.length made unmade :=
    (Omits.of_begin hb fun q he => (hq q he).1).run after
      (fun q hl => (hq q (hlost q hl)).2) hidle
  refine ⟨hanswer, homits.eq, fun k hk => homits.queues k fun hl => hk (hlost k hl), ?_⟩
  intro hn
  rw [List.mem_append, not_or] at hn
  have hquiet : start.Unheard := by
    obtain ⟨descriptor, codec, rfl⟩ := create_eq hstart
    exact ⟨rfl, rfl, nofun⟩
  have hunheard : unmade.Unheard :=
    (hquiet.run before hn.1).run _ fun hm => hn.2 (mem_without hm)
  have heq := homits.eq
  exact ⟨(congrArg Channel.lines heq).symm.trans hunheard.lines,
    (congrArg (·.relay.phase) heq).symm.trans hunheard.relay⟩

/-- An event handler is registered, without output of the worker. -/
def exampleHandler : List Action :=
  [.begin (.bindEvents false), .call 0, .call 0, .call 0, .call 0]

/-- The owner's second call goes on, and the worker prints a line. -/
def exampleSecond : List Action :=
  [.call 1, .print [ascii 'a', ascii '\n'], .task .relay, .call 1, .task .relay]

/-- A second event handler, with output. -/
theorem refused_without_trace_of_exampleSecond :
    let ch := exampleStart.run exampleHandler
    let made := ch.run (.begin (.bindEvents true) :: exampleSecond)
    ch.canBegin (Request.call (.bindEvents true)) = true ∧ ch.refuses (.bindEvents true) = true ∧
      made.calls[1]? = some (.returned (.error .eventsBound)) ∧ made.lines = [] ∧
      made.output.unread ≠ [] := by
  intro ch made
  have hb : ch.canBegin (Request.call (.bindEvents true)) = true := by decide +kernel
  have hr : ch.refuses (.bindEvents true) = true := by decide +kernel
  have hclosed : ch.closed = false := by decide +kernel
  obtain ⟨⟨e, he, hret⟩, -, -, hlines⟩ :=
    refused_without_trace create_exampleStart exampleHandler exampleSecond (.bindEvents true) hb
      nofun (.inl hr)
  rw [hclosed] at he
  cases he
  refine ⟨hb, hr, hret (by decide +kernel), (hlines ?_).1, by decide +kernel⟩
  simp [exampleHandler, exampleSecond]

end Channel

end WorkerLink
