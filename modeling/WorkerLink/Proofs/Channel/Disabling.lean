import WorkerLink.Proofs.Channel.Accounting
import WorkerLink.Proofs.Channel.Omitting
import WorkerLink.Proofs.Channel.Relaying

/-!
# Disabling a channel

To disable a channel before its streams are bound, or once more, changes nothing
(`DisablesNothing.idles`). Once it is disabled with its streams bound, nothing is given to the
handler and no command is taken any more (`Silent`), and the rest of the channel goes on as before:
it stays ready, its worker stays connected, and the console relay goes on (`Muted`).
-/

namespace WorkerLink

/-- Whether a call is about to tell the streams to stop. -/
def Call.isCancelling : Call → Bool
  | .cancel => true
  | _ => false

namespace Channel

variable {ch ch' X : Channel} {a : Action} {c c' : Call} {i n : Nat} {w w' : Wiring}

/-- Whether the channel knows a stream that it can stop. -/
def isBound (ch : Channel) : Bool := ch.consumer.registered || ch.producer.registered

/-! ## Streams that are bound -/

theorem WiringMove.still_bound (m : WiringMove ch w ch' w') (h : ch.isBound = true) :
    ch'.isBound = true := by
  cases m with
  | registerConsumer => exact Bool.or_eq_true_iff.2 (.inl rfl)
  | registerProducer => exact Bool.or_eq_true_iff.2 (.inr rfl)
  | _ => exact h

/-- A stream that the channel knows stays known. -/
theorem Move.still_bound (m : Move ch a ch') (h : ch.isBound = true) : ch'.isBound = true := by
  cases m with
  | acceptor m => cases m <;> exact h
  | verifier m =>
    cases m with
    | wire _ m | wired _ m => exact m.still_bound h
    | _ => exact h
  | consumer m => cases m <;> exact h
  | producer m => cases m <;> exact h
  | relay m => cases m <;> exact h
  | call _ m =>
    cases m with
    | wire m | wired m => exact m.still_bound h
    | _ => exact h
  | _ => exact h

theorem step_still_bound (h : ch.isBound = true) (a : Action) : (ch.step a).isBound = true := by
  rcases ch.step_cases a with hs | m
  · rwa [hs]
  · exact m.still_bound h

theorem step_still_disabled (h : ch.disabled = true) (a : Action) :
    (ch.step a).disabled = true := by
  rcases ch.step_cases a with hs | m
  · rwa [hs]
  · exact m.disabled h

/-! ## Calls that change nothing -/

/-- The first step of a call, if it takes one, finds no stream. -/
def LooksUnbound (X : Channel) (i : Nat) (as : List Action) : Prop :=
  ∀ mid rest, as = mid ++ .call i :: rest → .call i ∉ mid → (X.run mid).isBound = false

/-- A call to disable the channel that is made here changes nothing: it finds no stream to stop, or
the channel is disabled already. -/
def DisablesNothing (ch : Channel) (bs : List Action) : Prop :=
  (ch.step (.begin .disable)).LooksUnbound ch.calls.length bs ∨ ch.disabled = true

/-- To disable a channel that is disabled leaves it alone. -/
theorem idles_of_disabled (hi : X.calls[i]? = some .disable) (hd : X.disabled = true)
    (as : List Action) : X.Idles i as := by
  refine Idles.of_kept (P := fun X c => X.disabled = true ∧
    (c = .disable ∨ c = .cancel ∨ c = .returned (.ok ()))) ?_ ?_ ?_ hi ⟨hd, .inl rfl⟩ as
  · rintro X c ⟨hd, rfl | rfl | rfl⟩
    · exact .inl rfl
    · have hsame : { X with disabled := true } = X := by rw [← hd]
      exact .inl hsame
    · exact .inl rfl
  · rintro X c hi ⟨hd, hc⟩
    refine ⟨step_still_disabled hd _, ?_⟩
    rcases hc with rfl | rfl | rfl
    · rw [callStep]
      split
      · exact .inr (.inl rfl)
      · exact .inr (.inr rfl)
    · exact .inr (.inr rfl)
    · exact .inr (.inr rfl)
  · exact fun _ h _ => ⟨step_still_disabled h.1 _, h.2⟩

/-- To disable a channel whose streams are not bound leaves it alone. -/
theorem LooksUnbound.idles {as : List Action} (h : X.LooksUnbound i as)
    (hi : X.calls[i]? = some .disable) : X.Idles i as := by
  induction as generalizing X with
  | nil => trivial
  | cons a as ih =>
    by_cases ha : a = .call i
    · subst ha
      have hu : (X.consumer.registered || X.producer.registered) = false :=
        h [] as rfl List.not_mem_nil
      have hstep : X.callStep .disable = (X, .returned (.ok ())) := by simp [callStep, hu]
      have hreturned : (X.step (.call i)).calls[i]? = some (.returned (.ok ())) := by
        rw [calls_stepCall hi, hstep]
      refine ⟨fun _ c hc => ?_, idles_returned hreturned as⟩
      obtain rfl : Call.disable = c := Option.some.inj (hi.symm.trans hc)
      exact .inl (congrArg Prod.fst hstep)
    · refine ⟨fun he => (ha he).elim, ih (fun mid rest hm hn => ?_) (calls_step_of_ne hi ha)⟩
      refine h (a :: mid) rest (congrArg (a :: ·) hm) fun hmem => ?_
      rcases List.mem_cons.1 hmem with he | hmem
      · exact ha he.symm
      · exact hn hmem

theorem DisablesNothing.idles {bs : List Action} (h : ch.DisablesNothing bs)
    (hb : ch.canBegin Request.disable.call = true) :
    (ch.step (.begin .disable)).Idles ch.calls.length bs := by
  rcases h with h | hd
  · exact h.idles (calls_step_begin hb)
  · exact idles_of_disabled (calls_step_begin hb) (step_still_disabled hd _) bs

/-- Such a call can be put in wherever the owner can make it: its two steps, and then the run. -/
theorem addsCall_disable {start : Channel} {before : List Action}
    (hb : (start.run before).canBegin Request.disable.call = true)
    (h : (start.run before).isBound = false ∨ (start.run before).disabled = true)
    (as : List Action) :
    let n := (start.run before).calls.length
    start.AddsCall .disable DisablesNothing (before ++ as)
      (before ++ .begin .disable :: .call n :: .call n :: as.map (·.beyond n)) := by
  intro n
  have hi : ((start.run before).step (.begin .disable)).calls[n]? = some .disable :=
    calls_step_begin hb
  have hreturned : ((((start.run before).step (.begin .disable)).step (.call n)).step
      (.call n)).calls[n]? = some (.returned (.ok ())) := by
    have hcall : (((start.run before).step (.begin .disable)).callStep .disable).2 = .cancel ∨
        (((start.run before).step (.begin .disable)).callStep .disable).2 =
          .returned (.ok ()) := by
      rw [callStep]
      split
      · exact .inl rfl
      · exact .inr rfl
    have hnext := calls_stepCall hi
    rcases hcall with hc | hc <;> rw [hc] at hnext <;> exact calls_stepCall hnext
  refine .insert hb (.own (.own (weaves_of_returned hreturned as))) ?_
  refine h.imp_left fun hu mid rest hm hn => ?_
  cases mid with
  | nil =>
    rw [step_begin hb]
    exact hu
  | cons a mid =>
    obtain ⟨rfl, -⟩ := List.cons.inj hm
    exact (hn List.mem_cons_self).elim

/-! ## A call that disables the channel -/

/-- How a call to disable a channel stands whose streams are bound, with so many steps to go. -/
inductive Disabling (ch : Channel) : Nat → Call → Prop where
  | begun (h : ch.isBound = true) : Disabling ch 2 .disable
  | found : Disabling ch 1 .cancel
  | done {n : Nat} (h : ch.disabled = true) : Disabling ch n (.returned (.ok ()))

namespace Disabling

theorem own (h : Disabling ch n c) (hi : ch.calls[i]? = some c) :
    Disabling (ch.step (.call i)) (n - 1) (ch.callStep c).2 := by
  cases h with
  | begun hb =>
    have hnext : (ch.callStep .disable).2 = .cancel := if_pos hb
    rw [hnext]
    exact .found
  | found =>
    refine .done ?_
    simp only [Channel.step, stepCall, hi]
    rfl
  | done hd => exact .done (step_still_disabled hd _)

theorem others (h : Disabling ch n c) (a : Action) : Disabling (ch.step a) n c := by
  cases h with
  | begun hb => exact .begun (step_still_bound hb a)
  | found => exact .found
  | done hd => exact .done (step_still_disabled hd a)

end Disabling

/-- A call to disable a channel whose streams are bound has done so after two of its steps. -/
theorem disabled_of_begin (hb : ch.canBegin Request.disable.call = true) (h : ch.isBound = true)
    {as : List Action} (hn : 2 ≤ as.countP (·.goesOn ch.calls.length)) :
    (ch.run (.begin .disable :: as)).disabled = true ∧
      (ch.run (.begin .disable :: as)).calls[ch.calls.length]? = some (.returned (.ok ())) := by
  obtain ⟨c, hc, hd⟩ := run_call (P := Disabling) (fun hi h => h.own hi)
    (fun _ h _ => h.others _) (calls_step_begin hb) (.begun (step_still_bound h _)) as
  rw [Nat.sub_eq_zero_of_le hn] at hd
  cases hd with
  | done hd => exact ⟨hd, hc⟩

/-! ## What is silent -/

/-- Nothing was given to the handler, nothing written to a client and nothing taken from the command
source in between. -/
structure Silent (ch ch' : Channel) : Prop where
  handled : ch'.handled = ch.handled
  written : ∀ l, (ch'.link l).outbound.written = (ch.link l).outbound.written
  commands : ∀ q, ch.commands = some q → ch'.commands = some q ∧ (ch.queue q).Keeps (ch'.queue q)

namespace Silent

theorem refl (ch : Channel) : Silent ch ch := ⟨rfl, fun _ => rfl, fun _ h => ⟨h, .refl _⟩⟩

theorem trans {ch'' : Channel} (h : Silent ch ch') (h' : Silent ch' ch'') : Silent ch ch'' where
  handled := h'.handled.trans h.handled
  written l := (h'.written l).trans (h.written l)
  commands q hq := by
    obtain ⟨hq', hk⟩ := h.commands q hq
    obtain ⟨hq'', hk'⟩ := h'.commands q hq'
    exact ⟨hq'', hk.trans hk'⟩

end Silent

/-- A move that is none of the streams' is silent. -/
theorem Move.silent_of_ne (m : Move ch a ch') (h : ch.Accepts) (hc : a ≠ .task .consumer)
    (hp : a ≠ .task .producer) : Silent ch ch' where
  handled := m.handled_eq hc
  written := m.written_eq h hp
  commands _ hq := ⟨m.commands_eq hq, m.keeps_queue hp _⟩

/-- Streams that are disabled do nothing but stop. -/
theorem step_silent (h : ch.Accepts) (hd : ch.disabled = true) (a : Action) :
    Silent ch (ch.step a) := by
  by_cases hc : a = .task .consumer
  · subst hc
    cases hr : ch.consumer.isRunning with
    | false =>
      have hn : ch.consumerStep = none := by simp [consumerStep, hr]
      simpa only [step, taskStep, hn] using .refl ch
    | true =>
      have hn : ch.consumerStep = some ch.stopConsumer := by simp [consumerStep, hr, hd]
      simp only [step, taskStep, hn, Option.getD_some, stopConsumer_eq]
      exact ⟨rfl, fun _ => rfl, fun _ hq => ⟨hq, .refl _⟩⟩
  by_cases hp : a = .task .producer
  · subst hp
    cases hr : ch.producer.isRunning with
    | false =>
      have hn : ch.producerStep = none := by simp [producerStep, hr]
      simpa only [step, taskStep, hn] using .refl ch
    | true =>
      have hn : ch.producerStep = some ch.stopProducer := by simp [producerStep, hr, hd]
      simp only [step, taskStep, hn, Option.getD_some, stopProducer_eq]
      exact ⟨rfl, fun _ => rfl, fun _ hq => ⟨hq, .refl _⟩⟩
  rcases ch.step_cases a with hs | m
  · rw [hs]
    exact .refl ch
  · exact m.silent_of_ne h hc hp

theorem run_silent (h : ch.Inv) (hd : ch.disabled = true) (as : List Action) :
    Silent ch (ch.run as) := by
  induction as generalizing ch with
  | nil => exact .refl ch
  | cons a as ih =>
    exact (step_silent h.accepts hd a).trans (ih (h.run [a]) (step_still_disabled hd a))

/-! ## What goes on -/

/-- A connection that the channel has given up is one that it has ended. -/
def EndsBoth (ch : Channel) : Prop :=
  ∀ k, (ch.link k).inbound.abandoned = true → (ch.link k).outbound.ended = true

theorem EndsBoth.keeps (h : ch.EndsBoth) (hacc : ch.Accepts) (m : Move ch a ch') :
    ch'.EndsBoth := by
  intro k hk
  cases m.link hacc k with
  | same he =>
    rw [he] at hk ⊢
    exact h k hk
  | client ha he =>
    rw [he, Action.inbound_abandoned ha] at hk
    rw [he, (Action.byClient ha _).ended]
    exact h k hk
  | turnedAway _ he | reclaimed _ _ he | shutDown _ _ _ he =>
    rw [he]
    exact Stream.ended_finish _
  | read _ _ hr he =>
    rw [he] at hk ⊢
    refine h k ?_
    rcases hr with rfl | ⟨limit, rfl⟩
    · exact hk
    · obtain ⟨b, rest, broken, -, -, hs⟩ := (ch.link k).inbound.receive_frame limit
      rw [hs] at hk
      exact hk
  | written _ _ hw he =>
    obtain ⟨-, rfl⟩ := Stream.write_inv hw
    rw [he] at hk ⊢
    exact h k hk

/-- A channel is disabled only when it knows a stream that it can stop. -/
structure Disables (ch : Channel) : Prop where
  cancelling : 0 < ch.calls.countP Call.isCancelling → ch.isBound = true
  disabled : ch.disabled = true → ch.isBound = true

theorem Move.disabled_cases (m : Move ch a ch') :
    ch'.disabled = ch.disabled ∨ 0 < ch.calls.countP Call.isCancelling := by
  cases m with
  | acceptor m => cases m <;> exact .inl rfl
  | verifier m =>
    cases m with
    | wire _ m | wired _ m => exact .inl m.disabled_eq
    | _ => exact .inl rfl
  | consumer m => cases m <;> exact .inl rfl
  | producer m => cases m <;> exact .inl rfl
  | relay m => cases m <;> exact .inl rfl
  | call hi m =>
    cases m with
    | cancel => exact .inr (countP_pos _ hi rfl)
    | wire m | wired m => exact .inl m.disabled_eq
    | _ => exact .inl rfl
  | _ => exact .inl rfl

theorem CallMove.cancelling (m : CallMove ch c ch' c') (h : c'.isCancelling = true) :
    ch.isBound = true := by
  cases m with
  | disable hb => exact hb
  | _ => cases h

theorem Disables.keeps (h : ch.Disables) (m : Move ch a ch') : ch'.Disables where
  cancelling hpos := by
    obtain ⟨d, hm, hd⟩ := List.countP_pos_iff.1 hpos
    have old (hm : d ∈ ch.calls) : ch'.isBound = true :=
      m.still_bound (h.cancelling (List.countP_pos_iff.2 ⟨d, hm, hd⟩))
    have hcalls := m.callsMove
    cases hcalls with
    | same he => exact old (he ▸ hm)
    | @begin r =>
      rcases List.mem_append.1 hm with hm | hm
      · exact old hm
      · rw [List.mem_singleton.1 hm] at hd
        cases r <;> cases hd
    | call hi mc =>
      rcases List.mem_or_eq_of_mem_set hm with hm | rfl
      · exact old hm
      · exact m.still_bound (mc.cancelling hd)
  disabled hd := by
    rcases m.disabled_cases with he | hpos
    · exact m.still_bound (h.disabled (he ▸ hd))
    · exact m.still_bound (h.cancelling hpos)

theorem Move.relay_started (m : Move ch a ch') (h : ch.relay.isStarted = true) :
    ch'.relay.isStarted = true := by
  rcases m.relay_cases with he | ⟨hr, he⟩ | he | ⟨-, he⟩ <;> rw [he]
  · exact h
  · rw [Task.isStarted_stop hr]
    exact h
  · exact h
  · rfl

/-- A consumer that has stopped is started again by nobody but who binds the streams. -/
theorem Move.consumer_idle (m : Move ch a ch') (hb : ch.binds? a = none)
    (h : ch.consumer.isRunning = false) : ch'.consumer.isRunning = false := by
  cases m with
  | acceptor m => cases m <;> exact h
  | verifier m =>
    cases m with
    | wire hv | wired hv => simp [binds?, hv, Verifier.wiring?] at hb
    | _ => exact h
  | consumer m =>
    cases m with
    | halt hr | arrived hr | item hr | failed hr | ended hr => simp [Task.isRunning, hr] at h
  | producer m => cases m <;> exact h
  | relay m => cases m <;> exact h
  | call hi m =>
    simp only [binds?, hi, Option.bind_some] at hb
    cases m with
    | wire | wired => cases hb
    | _ => exact h
  | _ => exact h

/-- Both streams are bound, and the event consumer has stopped. -/
structure Muted (ch : Channel) : Prop where
  accounts : ch.Accounts
  endsBoth : ch.EndsBoth
  opened : ch.gate.remaining = 0
  unwired : ch.wirings = []
  streams : ch.streams = .both
  consumer : ch.consumer.isRunning = false

namespace Muted

theorem keeps (h : ch.Muted) (m : Move ch a ch') : ch'.Muted := by
  have hi := h.accounts.tracks.closes.inv
  have hb := m.binds_eq_none hi.gathers h.unwired
  obtain ⟨hopened, hunwired, hstreams⟩ :=
    m.stays_unwired hi.gathers hi.accepts h.opened h.unwired
  exact
    { accounts := h.accounts.keeps m
      endsBoth := h.endsBoth.keeps hi.accepts m
      opened := hopened
      unwired := hunwired
      streams := hstreams.trans h.streams
      consumer := m.consumer_idle hb h.consumer }

theorem run (h : ch.Muted) (as : List Action) : (ch.run as).Muted := run_keeps keeps h as

theorem admitted (h : ch.Muted) : ch.Admitted :=
  h.accounts.tracks.closes.inv.gathers.admitted (by rw [h.streams]; decide)

/-- Until it is closed the channel stays ready. -/
theorem state_eq (h : ch.Muted) (hc : ch.closed = false) : ch.state = .ready := by
  have hg := h.accounts.tracks.closes.inv.gathers
  have hstanding := h.accounts.tracks.standing hc
  rw [standing_recorded (hg.isRecorded h.opened)] at hstanding
  rw [hstanding _ h.admitted.verified]
  simp [Authentication.isVerified, boundState, h.unwired, h.opened, h.streams]

/-- Until it is closed nobody holds a permit but a console relay that runs. -/
theorem pendingRelays_eq (h : ch.Muted) (hc : ch.closed = false) :
    ch.pendingRelays = ch.relay.isRunning.toNat := by
  have hheld := (h.accounts.reserves hc).opened h.opened
  have hpermit : ch.consumerPermit = false := by
    cases hp : ch.consumerPermit with
    | false => rfl
    | true =>
      have hr := h.accounts.permits.consumer_isRunning hp
      rw [h.consumer] at hr
      cases hr
  rw [h.accounts.permits.pendingRelays_eq, livePermits, hheld, hpermit, h.unwired]
  simp

/-- Until it is closed the worker's connection is open in both directions, as far as the channel is
concerned. -/
theorem link (h : ch.Muted) (hc : ch.closed = false) {l : LinkId} (hs : ch.slot = some l) :
    (ch.link l).outbound.ended = false ∧ (ch.link l).inbound.abandoned = false := by
  have hopen := h.accounts.tracks.closes.inv.open_of hc
  have hended := hopen.outbound l (mem_arrivals_of_slot hs)
  refine ⟨hended, ?_⟩
  cases ha : (ch.link l).inbound.abandoned with
  | false => rfl
  | true =>
    rw [h.endsBoth l ha] at hended
    cases hended

end Muted

/-- A disabled channel that has settled has bound its streams, and its consumer has stopped. -/
theorem muted_of_rests (h : ch.Accounts) (he : ch.EndsBoth) (hd : ch.Disables)
    (hdis : ch.disabled = true) (hr : ch.Rests) : ch.Muted := by
  have hbound := hd.disabled hdis
  have hunwired := h.tracks.unwired hr
  have hwired := h.tracks.closes.inv.gathers.wired
  have bound (hs : ch.streams = {}) : False := by
    simp only [streams, StreamsBound.mk.injEq] at hs
    simp [isBound, hs.2.1, hs.2.2.2] at hbound
  have hconsumer : ch.consumer.isRunning = false := by
    cases hrun : ch.consumer.isRunning with
    | false => rfl
    | true =>
      have hstep : ch.consumerStep = none := taskStep_of_isSettled hr.settled .consumer
      simp [consumerStep, hrun, hdis] at hstep
  rw [hunwired] at hwired
  cases hwired with
  | waiting _ hs | refused _ hs => exact (bound hs).elim
  | bound hg hs => exact ⟨h, he, hg, hunwired, hs, hconsumer⟩

/-- To disable the channel any number of times before its streams are bound, or once it is disabled,
changes nothing in a run but the calls that were made. With its streams bound the channel is
disabled by the second step of the call. However the run goes on from there, even to its end, no
event is given to the handler, no byte is written to a client, and what is in the queue of the
command source stays there until the queue is closed. Once a disabled channel has settled, then as
long as it is not closed it stays ready, the worker's connection is neither shut down nor half
closed, the consumer has stopped and no relay is pending but the console relay, if that runs. It
does run if it did, and the console gets every line, until the output ends or a line in it cannot be
read. -/
theorem disabled_streams_silent {m : Machine} {faults : Faults} {config : Config}
    {fresh : SessionId} {port : UInt16} {shape : Json.Shape} {start : Channel}
    (hstart : create m faults config fresh port shape = .ok start) :
    (∀ as bs, Relation.ReflTransGen (start.AddsCall .disable DisablesNothing) as bs →
      start.run as = { start.run bs with calls := (start.run as).calls } ∧
        (start.run as).calls.Sublist (start.run bs).calls) ∧
    ∀ before, let ch := start.run before
      (∀ after, ch.canBegin Request.disable.call = true → ch.isBound = true →
        2 ≤ after.countP (·.goesOn ch.calls.length) →
        (ch.run (.begin .disable :: after)).disabled = true ∧
          (ch.run (.begin .disable :: after)).calls[ch.calls.length]? =
            some (.returned (.ok ()))) ∧
      (ch.disabled = true → ∀ later, Silent ch (ch.run later)) ∧
      (ch.disabled = true → ch.Rests → ∀ later, let x := ch.run later
        x.closed = false →
        x.state = .ready ∧
        (∃ l, ch.slot = some l ∧ x.slot = some l ∧
          (x.link l).outbound.ended = false ∧ (x.link l).inbound.abandoned = false) ∧
        x.consumer.isRunning = false ∧ x.pendingRelays = x.relay.isRunning.toNat ∧
        (ch.relay.isRunning = true → x.isSettled = true → x.output.ended = false →
          ∀ splitter, (Console.Splitter.read {} x.output.written).next = .ok splitter →
            x.relay.isRunning = true ∧
              x.lines = (Console.Splitter.read {} x.output.written).lines)) := by
  refine ⟨fun as bs => run_eq_of_addsCall rfl fun ch bs hb h => h.idles hb, fun before => ?_⟩
  intro ch
  have hrelays : ch.Relays := (Relays.of_create hstart).run before
  refine ⟨fun after hb h => disabled_of_begin hb h, run_silent hrelays.inv,
    fun hd hr later => ?_⟩
  intro x hc
  have haccounts : ch.Accounts := (Accounts.of_create hstart).run before
  have hboth : ch.Accounts ∧ ch.EndsBoth ∧ ch.Disables := by
    have hinit : start.Accounts ∧ start.EndsBoth ∧ start.Disables := by
      have ha := Accounts.of_create hstart
      obtain ⟨descriptor, codec, rfl⟩ := create_eq hstart
      refine ⟨ha, fun k hk => ?_, nofun, nofun⟩
      rw [link_of_no_links rfl] at hk
      cases hk
    exact run_keeps (P := fun ch => ch.Accounts ∧ ch.EndsBoth ∧ ch.Disables)
      (fun h m => ⟨h.1.keeps m, h.2.1.keeps h.1.tracks.closes.inv.accepts m, h.2.2.keeps m⟩)
      hinit before
  have hmuted : x.Muted := (muted_of_rests hboth.1 hboth.2.1 hboth.2.2 hd hr).run later
  obtain ⟨l, hl⟩ := Option.isSome_iff_exists.1
    (muted_of_rests hboth.1 hboth.2.1 hboth.2.2 hd hr).admitted.slot
  have hslot : x.slot = some l := slot_run hl later
  obtain ⟨hended, hkept⟩ := hmuted.link hc hslot
  refine ⟨hmuted.state_eq hc, ⟨l, hl, hslot, hended, hkept⟩, hmuted.consumer,
    hmuted.pendingRelays_eq hc, fun hrun hset he splitter hn => ?_⟩
  have hstarted : x.relay.isStarted = true :=
    run_keeps (P := fun x => x.relay.isStarted = true) (fun h m => m.relay_started h)
      (Task.isStarted_of_isRunning hrun) later
  exact (hrelays.run later).lines_eq hset hstarted
    (hmuted.accounts.tracks.closes.inv.open_of hc).relay he hn

/-- A verified worker with output to relay, and both registrations. -/
def exampleListening : List Action :=
  [.begin .connect, .call 0, .call 0, .call 0, .call 0, .makeQueue, .begin (.bindCommands 0),
    .call 1, .call 1, .call 1, .begin (.bindEvents true), .call 2, .call 2, .call 2, .call 2,
    .call 2, .join, .send 0 exampleToken.bytes] ++ exampleSettling

/-- The channel is disabled, and settles. -/
def exampleDisabled : List Action :=
  exampleListening ++ [.begin .disable, .call 3, .call 3] ++ exampleSettling

/-- The worker sends an event and prints a line, and a command is queued for it. -/
def exampleTraffic : List Action :=
  [.send 0 (Codec.frame (Json.bytes .null)), .command 0 (.value (.bool true)),
    .print [ascii 'a', ascii '\n']] ++ exampleSettling ++ [.task .relay]

theorem disabled_streams_silent_of_exampleTraffic :
    let ch := exampleStart.run exampleDisabled
    let x := ch.run exampleTraffic
    exampleStart.run exampleDisabled = { exampleStart.run (.begin .disable :: .call 0 :: .call 0 ::
        exampleDisabled.map (·.beyond 0)) with calls := ch.calls } ∧
      ch.disabled = true ∧ x.handled = ch.handled ∧ (x.queue 0).items ≠ [] ∧
      x.state = .ready ∧ x.pendingRelays = 1 ∧ x.lines = ["a"] := by
  intro ch x
  obtain ⟨hinsert, hrest⟩ := disabled_streams_silent create_exampleStart
  obtain ⟨-, hsilent, hready⟩ := hrest exampleDisabled
  have hbegin : (exampleStart.run []).canBegin Request.disable.call = true := by decide +kernel
  have hadds := addsCall_disable hbegin (.inl (by decide +kernel)) exampleDisabled
  have hd : ch.disabled = true := by decide +kernel
  have hopen : x.closed = false := by decide +kernel
  obtain ⟨hstate, -, -, hpending, hrelay⟩ :=
    hready hd (by decide +kernel) exampleTraffic hopen
  obtain ⟨hrun, hlines⟩ := hrelay (by decide +kernel) (by decide +kernel) (by decide +kernel)
    {} (by decide +kernel)
  refine ⟨(hinsert _ _ (.single hadds)).1, hd, (hsilent hd exampleTraffic).handled,
    by decide +kernel, hstate, ?_, ?_⟩
  · rw [hpending, hrun]
    rfl
  · rw [hlines]
    decide +kernel

end Channel

end WorkerLink
