import WorkerLink.Proofs.Channel.Disabling
import WorkerLink.Proofs.Channel.Releasing
import WorkerLink.Proofs.Channel.TurnedAway

/-!
# A channel that was closed stays closed

Once all is settled behind a call that closes the channel, nobody works for it any more and nobody
is let in (`Vacant`). Whatever happens then, even verification that comes to its end and opens the
gate, leaves it so (`Final`). Whoever waited for the worker has been answered (`Resolved`), unless
the worker's connection was not shut down (`worker_outlives_closing`).
-/

namespace WorkerLink.Channel

variable {ch ch' x : Channel} {a : Action} {c : Call} {i n : Nat} {l : LinkId} {w : Wiring}

/-! ## Nobody listens -/

/-- As long as somebody listens, somebody has the right to accept. -/
def Attended (ch : Channel) : Prop := ch.listener ≠ .nobody → ch.hands = 1

/-- Nobody listens again. -/
theorem Move.listener_nobody (m : Move ch a ch') (h : ch.listener = .nobody) :
    ch'.listener = .nobody := by
  cases m with
  | acceptor m => exact m.ne_absent.2.2.2.elim (·.trans h) id
  | verifier m =>
    cases m with
    | wire _ m | wired _ m => exact m.accepting.2.1.trans h
    | _ => exact h
  | consumer m => cases m <;> exact h
  | producer m => cases m <;> exact h
  | relay m => cases m <;> exact h
  | call _ m =>
    cases m with
    | takeListener hl =>
      rw [h] at hl
      cases hl
    | releaseListener => rfl
    | wire m | wired m => exact m.accepting.2.1.trans h
    | _ => exact h
  | _ => exact h

theorem Attended.keeps (h : ch.Attended) (hc : ch.Accepts) (m : Move ch a ch') : ch'.Attended := by
  intro hl
  rcases m.hands_cases hc.hands with he | ⟨-, hn, -⟩
  · rw [he]
    apply h
    intro hn
    exact hl (m.listener_nobody hn)
  · exact (hl hn).elim

/-- Accepting is begun once and for all. -/
theorem Move.acceptor_ne_absent (m : Move ch a ch') (h : ch.acceptor ≠ .absent) :
    ch'.acceptor ≠ .absent := by
  cases m with
  | acceptor m => exact m.ne_absent.2.1
  | verifier m => exact m.accepting.1 ▸ h
  | consumer m => cases m <;> exact h
  | producer m => cases m <;> exact h
  | relay m => cases m <;> exact h
  | call _ m =>
    cases m with
    | spawnAcceptor => nofun
    | wire m | wired m => exact m.accepting.1 ▸ h
    | _ => exact h
  | _ => exact h

/-- Once a channel is closed, nobody begins to accept. -/
theorem Move.acceptor_absent (m : Move ch a ch') (hr : ch.Refuses) (hc : ch.closed = true)
    (h : ch.acceptor = .absent) : ch'.acceptor = .absent := by
  cases m with
  | acceptor m => exact (m.ne_absent.1 h).elim
  | verifier m => exact m.accepting.1.trans h
  | consumer m => cases m <;> exact h
  | producer m => cases m <;> exact h
  | relay m => cases m <;> exact h
  | call hi m =>
    have granted := hr hc _ (List.mem_of_getElem? hi)
    cases m with
    | spawnAcceptor => cases granted
    | wire m | wired m => exact m.accepting.1.trans h
    | _ => exact h
  | _ => exact h

/-- As long as no client connects, those who are still to be accepted only become fewer. -/
theorem arrivals_of_clients (hc : ch.Accepts) (as : List Action)
    (hl : (ch.run as).links.length = ch.links.length) :
    (ch.run as).arrivals.Sublist ch.arrivals := by
  refine (run_keeps (P := fun y => y.Accepts ∧ ch.links.length ≤ y.links.length ∧
    (y.links.length = ch.links.length → y.arrivals.Sublist ch.arrivals)) ?_
    ⟨hc, Nat.le_refl _, fun _ => .refl _⟩ as).2.2 hl
  intro y b y' ⟨hc, hle, hsub⟩ m
  refine ⟨hc.keeps m, ?_⟩
  rcases (m.accepting hc).2 with ⟨hs, hlen⟩ | ⟨-, hlen, -⟩ <;> rw [hlen]
  · exact ⟨hle, fun he => hs.trans (hsub he)⟩
  · refine ⟨Nat.le_succ_of_le hle, fun he => ?_⟩
    omega

/-- As long as no client connects, nobody comes into the worker slot if nobody is on the way. -/
theorem slot_eq_of_clients (hc : ch.Accepts) (ha : ch.arrivals = ch.slot.toList)
    (as : List Action) (hl : (ch.run as).links.length = ch.links.length) :
    (ch.run as).slot = ch.slot := by
  cases hs : ch.slot with
  | some l => exact slot_run hs as
  | none =>
    have hsub := arrivals_of_clients hc as hl
    rw [ha, hs, Option.toList_none, List.sublist_nil, arrivals, List.append_assoc,
      List.append_eq_nil_iff] at hsub
    exact Option.toList_eq_nil_iff.1 hsub.1

/-! ## Nobody works for the channel -/

/-- Nobody works for the channel, and nobody is let in. -/
structure Vacant (ch : Channel) : Prop where
  consumer : ch.consumer.isRunning = false
  producer : ch.producer.isRunning = false
  relay : ch.relay.isRunning = false
  acceptor : ch.acceptor = .absent ∨ ch.acceptor = .stopped
  listener : ch.listener = .nobody

theorem Move.ne_consumer (m : Move ch a ch') (h : ch.consumer.isRunning = false) :
    a ≠ .task .consumer := by
  rintro rfl
  cases m with
  | consumer m =>
    cases m with
    | halt hr | arrived hr | item hr | failed hr | ended hr => simp [Task.isRunning, hr] at h
  | client ha => cases ha

theorem Move.ne_producer (m : Move ch a ch') (h : ch.producer.isRunning = false) :
    a ≠ .task .producer := by
  rintro rfl
  cases m with
  | producer m => simp [Task.isRunning, m.running] at h
  | client ha => cases ha

theorem Move.ne_relay (m : Move ch a ch') (h : ch.relay.isRunning = false) :
    a ≠ .task .relay := by
  rintro rfl
  cases m with
  | relay m =>
    cases m with
    | read hr | stop hr => simp [Task.isRunning, hr] at h
  | client ha => cases ha

/-- A producer that has stopped is started again by nobody but who binds the streams. -/
theorem Move.producer_idle (m : Move ch a ch') (hb : ch.binds? a = none)
    (h : ch.producer.isRunning = false) : ch'.producer.isRunning = false := by
  cases m with
  | acceptor m => cases m <;> exact h
  | verifier m =>
    cases m with
    | wire hv | wired hv => simp [binds?, hv, Verifier.wiring?] at hb
    | _ => exact h
  | consumer m => cases m <;> exact h
  | producer m => simp [Task.isRunning, m.running] at h
  | relay m => cases m <;> exact h
  | call hi m =>
    simp only [binds?, hi, Option.bind_some] at hb
    cases m with
    | wire | wired => cases hb
    | _ => exact h
  | _ => exact h

/-- A console relay that has stopped, or was never started, is not started in a closed channel. -/
theorem Move.relay_idle (m : Move ch a ch') (hr : ch.Refuses) (hc : ch.closed = true)
    (h : ch.relay.isRunning = false) : ch'.relay.isRunning = false := by
  rcases m.relay_cases with he | ⟨-, he⟩ | he | ⟨⟨c, hm, hg⟩, -⟩
  · rwa [he]
  · rw [he]
    rfl
  · rw [he]
    exact h
  · rw [hr hc c hm] at hg
    cases hg

/-- In a closed channel who is about to bind the streams leaves it be. -/
theorem Binds.closed (b : Binds ch .start ch') (hc : ch.closed = true) :
    ∃ v cs, ch' = { ch with verifier := v, calls := cs } ∧ ch'.wirings = [] := by
  cases b with
  | step m _ _ _ _ hw' =>
    cases m with
    | closed =>
      rw [if_pos rfl] at hw'
      exact ⟨_, _, rfl, hw'⟩
    | start ho =>
      rw [hc] at ho
      cases ho

/-! ## What is final -/

/-- Closing has come to its end and nobody works for the channel; at most somebody is about to find
that it is closed. -/
structure Final (ch : Channel) : Prop where
  closes : ch.Closes
  closed : ch.HasClosed
  vacant : ch.Vacant
  wirings : ∀ w ∈ ch.wirings, w = .start

/-- Nothing was given to the handler or to the console, nothing was written to a client, and no
client was let in, in between. -/
structure Still (ch ch' : Channel) : Prop extends Silent ch ch' where
  lines : ch'.lines = ch.lines
  clients : ch'.links.length = ch.links.length

theorem Still.trans {ch'' : Channel} (h : Still ch ch') (h' : Still ch' ch'') : Still ch ch'' where
  toSilent := h.toSilent.trans h'.toSilent
  lines := h'.lines.trans h.lines
  clients := h'.clients.trans h.clients

namespace Final

theorem keeps (h : ch.Final) (m : Move ch a ch') : ch'.Final := by
  have hi := h.closes.inv
  have hclosed := h.closed.1
  have hrefuses := h.closes.refuses
  cases hb : ch.binds? a with
  | some w =>
    have b := m.binds hi.gathers hb
    obtain rfl : w = .start := by
      cases b with
      | step _ hw => exact h.wirings w (hw ▸ List.mem_singleton_self w)
    obtain ⟨v, cs, rfl, hw⟩ := b.closed hclosed
    refine ⟨h.closes.keeps m, h.closed.keeps m, ?_, ?_⟩
    · exact ⟨h.vacant.consumer, h.vacant.producer, h.vacant.relay, h.vacant.acceptor,
        h.vacant.listener⟩
    · rw [hw]
      nofun
  | none =>
    refine ⟨h.closes.keeps m, h.closed.keeps m, ?_, ?_⟩
    · exact
        { consumer := m.consumer_idle hb h.vacant.consumer
          producer := m.producer_idle hb h.vacant.producer
          relay := m.relay_idle hrefuses hclosed h.vacant.relay
          acceptor := h.vacant.acceptor.imp (m.acceptor_absent hrefuses hclosed)
            (m.stays_stopped hi.accepts)
          listener := m.listener_nobody h.vacant.listener }
    · cases (m.bystander hi.gathers hi.accepts hb).2 with
      | same hw =>
        rw [hw]
        exact h.wirings
      | opens _ _ _ hw =>
        rw [hw]
        intro w hm
        exact List.mem_singleton.1 hm

theorem run (h : ch.Final) (as : List Action) : (ch.run as).Final := run_keeps keeps h as

theorem still (h : ch.Final) (m : Move ch a ch') : Still ch ch' := by
  have hacc := h.closes.inv.accepts
  have hconsumer := m.ne_consumer h.vacant.consumer
  have hproducer := m.ne_producer h.vacant.producer
  refine
    { toSilent := m.silent_of_ne hacc hconsumer hproducer
      lines := m.lines_eq (m.ne_relay h.vacant.relay)
      clients := ?_ }
  rcases (m.accepting hacc).2 with ⟨-, hl⟩ | ⟨-, -, hl⟩
  · exact hl
  · exact (hl h.vacant.listener).elim

theorem still_run (h : ch.Final) (as : List Action) : Still ch (ch.run as) :=
  (run_keeps (P := fun x => x.Final ∧ Still ch x)
    (fun hx m => ⟨hx.1.keeps m, hx.2.trans (hx.1.still m)⟩)
    ⟨h, ⟨.refl ch, rfl, rfl⟩⟩ as).2

/-- The state is `closed`, and no relay is pending. -/
theorem state_eq (h : ch.Final) : ch.state = .closed := h.closes.ends.state (h.closed.passed 1)

theorem pendingRelays_eq (h : ch.Final) : ch.pendingRelays = 0 := by
  apply h.closes.pendingRelays_eq_zero h.closed _ h.vacant.consumer h.vacant.relay
  intro w hw
  rw [h.wirings w hw]
  rfl

end Final

/-! ## Further calls to close -/

/-- How a call to close a channel stands that was closed before, with so many steps to go. -/
inductive ClosingAgain (ch : Channel) : Nat → Call → Prop where
  | begun (h : ch.closed = true) : ClosingAgain ch 1 (.close false .start)
  | returned {n : Nat} (h : ch.closed = true) : ClosingAgain ch n (.returned (.ok ()))

namespace ClosingAgain

theorem callStep_start (h : ch.closed = true) :
    ch.callStep (.close false .start) = (ch, .returned (.ok ())) := by
  simp [callStep, h, finishClosing, CloseError.aggregate]

theorem own (h : ClosingAgain ch n c) :
    ClosingAgain (ch.step (.call i)) (n - 1) (ch.callStep c).2 := by
  cases h with
  | begun hc =>
    rw [callStep_start hc]
    exact .returned (step_closed hc _)
  | returned hc => exact .returned (step_closed hc _)

theorem others (h : ClosingAgain ch n c) (a : Action) : ClosingAgain (ch.step a) n c := by
  cases h with
  | begun hc => exact .begun (step_closed hc a)
  | returned hc => exact .returned (step_closed hc a)

theorem spares (h : ClosingAgain ch n c) : ch.Spares c := by
  left
  cases h with
  | begun hc => rw [callStep_start hc]
  | returned => rfl

/-- To close a channel that is closed leaves it alone. -/
theorem idles (h : ClosingAgain ch n c) (hi : ch.calls[i]? = some c) (as : List Action) :
    ch.Idles i as := by
  refine Idles.of_kept (P := fun X c => ∃ n, ClosingAgain X n c) ?_ ?_ ?_ hi ⟨n, h⟩ as
  · rintro X c ⟨n, h⟩
    exact h.spares
  · rintro X c - ⟨n, h⟩
    exact ⟨n - 1, h.own⟩
  · rintro X c a - ⟨n, h⟩ -
    exact ⟨n, h.others a⟩

end ClosingAgain

/-- A call to close a channel that is closed returns with its first step. -/
theorem returned_of_begin_close (hc : ch.closed = true)
    (hb : ch.canBegin Request.close.call = true) {as : List Action}
    (hn : 1 ≤ as.countP (·.goesOn ch.calls.length)) :
    (ch.run (.begin .close :: as)).calls[ch.calls.length]? = some (.returned (.ok ())) := by
  obtain ⟨c, hcall, h⟩ := run_call (P := ClosingAgain) (fun _ h => h.own)
    (fun _ h _ => h.others _) (calls_step_begin hb) (.begun (step_closed hc _)) as
  rw [Nat.sub_eq_zero_of_le hn] at h
  cases h with
  | returned => exact hcall

/-! ## Once all is settled behind closing -/

/-- All that is known of a channel, whether it is closed or not. -/
structure Whole (ch : Channel) : Prop where
  accounts : ch.Accounts
  sheds : ch.Sheds
  attended : ch.Attended

namespace Whole

theorem inv (h : ch.Whole) : ch.Inv := h.accounts.tracks.closes.inv

theorem keeps (h : ch.Whole) (m : Move ch a ch') : ch'.Whole where
  accounts := h.accounts.keeps m
  sheds := h.sheds.keeps m h.inv.accepts
  attended := h.attended.keeps h.inv.accepts m

theorem run (h : ch.Whole) (as : List Action) : (ch.run as).Whole := run_keeps keeps h as

theorem of_create {m : Machine} {faults : Faults} {config : Config} {fresh : SessionId}
    {port : UInt16} {shape : Json.Shape}
    (h : create m faults config fresh port shape = .ok ch) : ch.Whole := by
  refine ⟨.of_create h, .of_create h, ?_⟩
  obtain ⟨descriptor, codec, rfl⟩ := create_eq h
  exact fun _ => rfl

/-- Accepting that has settled has not begun or waits for nobody. -/
theorem arrivals_eq (h : ch.Whole) (hr : ch.Rests) (ha : ch.acceptor ≠ .absent) :
    ch.arrivals = ch.slot.toList := by
  have hrest : ch.acceptor.taken? = none ∧ ch.backlog = [] := by
    rcases acceptor_of_isSettled hr.settled with hs | hs | ⟨hs, -, hb⟩
    · exact (ha hs).elim
    · rw [hs]
      exact ⟨rfl, h.sheds.deaf (h.sheds.stopped hs)⟩
    · rw [hs]
      exact ⟨rfl, hb⟩
  rw [arrivals, hrest.1, hrest.2, Option.toList_none, List.append_nil, List.append_nil]

/-- Once all is settled in a closed channel, accepting has stopped or was never begun, and nobody
listens. -/
theorem vacant (h : ch.Whole) (hr : ch.Rests) (hc : ch.closed = true) : ch.Vacant := by
  obtain ⟨hconsumer, hproducer, hrelay⟩ := h.accounts.stopped_of_rests hr hc
  obtain ⟨howner, haborted⟩ :=
    h.accounts.tracks.closes.ends.acceptor ((hr.hasClosed hc).passed 3)
  have hacceptor : ch.acceptor = .absent ∨ ch.acceptor = .stopped := by
    rcases acceptor_of_isSettled hr.settled with ha | ha | ⟨ha, hab, -⟩
    · exact .inl ha
    · exact .inr ha
    · rw [haborted (by rw [ha]; nofun)] at hab
      cases hab
  refine ⟨hconsumer, hproducer, hrelay, hacceptor, ?_⟩
  rcases hacceptor with ha | ha
  · -- accepting was never begun, so whoever listened had the right to accept from somebody else
    by_contra hl
    have hands := h.attended hl
    rw [Channel.hands, hr.countP fun _ => rfl, ha, decide_eq_false howner] at hands
    cases hands
  · exact h.sheds.stopped ha

theorem final (h : ch.Whole) (hr : ch.Rests) (hc : ch.closed = true) : ch.Final where
  closes := h.accounts.tracks.closes
  closed := hr.hasClosed hc
  vacant := h.vacant hr hc
  wirings := by
    rw [h.accounts.tracks.unwired hr]
    nofun

end Whole

/-- Whatever moved traffic before was told to stop. -/
structure Aborts (ch x : Channel) : Prop where
  consumer : ch.consumer.isStarted = true → x.consumer.aborted = true
  producer : ch.producer.isStarted = true → x.producer.aborted = true
  relay : ch.relay.isStarted = true → x.relay.aborted = true

/-- Closing tells all that moved traffic before to stop. -/
theorem Whole.aborts (h : ch.Whole) (hr : ch.Rests) {as : List Action}
    (hc : (ch.run as).HasClosed) : Aborts ch (ch.run as) := by
  have ends := (h.run as).accounts.tracks.closes.ends
  have hwired := h.inv.gathers.wired
  have streams (hs : ch.streams ≠ {}) :
      (ch.run as).Aborted ∧ (ch.run as).streams = ch.streams := by
    rw [h.accounts.tracks.unwired hr] at hwired
    cases hwired with
    | waiting _ he | refused _ he => exact (hs he).elim
    | bound hg =>
      obtain ⟨hw, hst⟩ := h.inv.unwired_run hg (h.accounts.tracks.unwired hr) as
      refine ⟨(ends.streams (hc.passed 4)).resolve_left ?_, hst⟩
      rintro ⟨w, hw', -⟩
      rw [hw] at hw'
      cases hw'
  constructor
  · intro hs
    have hstarted : ch.streams.consumerStarted = true := hs
    obtain ⟨ha, hst⟩ := streams fun he => by simp [he] at hstarted
    exact ha.1 ((congrArg StreamsBound.consumerStarted hst).trans hs)
  · intro hs
    have hstarted : ch.streams.producerStarted = true := hs
    obtain ⟨ha, hst⟩ := streams fun he => by simp [he] at hstarted
    exact ha.2 ((congrArg StreamsBound.producerStarted hst).trans hs)
  · intro hs
    apply ends.relay (hc.passed 5)
    exact run_keeps (P := fun y => y.relay.isStarted = true) (fun h m => m.relay_started h) hs as

/-! ## Those who wait -/

/-- The worker was let go: its connection is shut down, and whoever waits for it is answered. -/
structure LetGo (ch : Channel) (l : LinkId) : Prop where
  slot : ch.slot = some l
  shut : (ch.link l).IsShut
  accepted : ch.accepted? = some (.ok l)
  complete : ∃ o, ch.complete? = some (.ok o) ∧
    ((ch.link l).inbound.written.length < ch.session.length → o = .closedEarly)

/-- A worker that has not written as much as the token has was not verified. -/
theorem Inv.eq_closedEarly (h : ch.Inv) (hs : ch.slot = some l) (hset : ch.isSettled = true)
    {o : Authentication} (ho : ch.verified = some o)
    (hn : (ch.link l).inbound.written.length < ch.session.length) : o = .closedEarly := by
  have hshows := h.gathers.shows
  have hrecorded : ch.verifier.isRecorded = true := by
    rw [ho] at hshows
    have hpending := hshows.not_pending
    rcases h.gathers.verifier_of_isSettled hset with hv | ⟨got, hv⟩ | hv <;>
      rw [hv] at hpending ⊢
    · cases hpending
    · cases hpending
    · rfl
  obtain ⟨o', ho', hrec⟩ := hshows.outcome hrecorded
  obtain rfl : o = o' := Option.some.inj (ho.symm.trans ho')
  have hverdict := (h.listens.hears l hs).token.verdict hrecorded hrec
  cases hverdict with
  | early => rfl
  | complete hle =>
    rw [Stream.written, List.length_append] at hn
    omega

theorem Released.letGo (h : ch.Released l) (hset : ch.isSettled = true)
    (hs : ch.acceptor = .stopped) : ch.LetGo l := by
  have hz : ch.verifier.steps ch.session.length = 0 := by
    by_contra hn
    obtain ⟨ch', he⟩ := h.verifierStep (Nat.pos_of_ne_zero hn)
    have hnone : ch.verifierStep = none := taskStep_of_isSettled hset .verifier
    rw [he] at hnone
    cases hnone
  obtain ⟨o, hv, ho⟩ := h.complete hs hz
  exact ⟨h.slot, h.shut, h.accepted? hs, o, ho, h.inv.eq_closedEarly h.slot hset hv⟩

/-- Whoever waited for the worker in the first channel is answered in the second one: what was known
already stays, and with no connection in the worker slot the answer is an error. -/
structure Resolved (ch x : Channel) : Prop where
  accepted : ∃ r, x.accepted? = some r
  stays_accepted : ∀ r, ch.accepted? = some r → x.accepted? = some r
  stays_complete : ∀ r, ch.complete? = some r → x.complete? = some r
  refused : x.slot = none → ∃ reason, x.accepted? = some (.error (.accept reason)) ∧
    x.complete? = some (.error (.accept reason))

theorem resolved_of_stopped (hi : ch.Inv) (ha : ch.Answers) {as : List Action}
    (hs : (ch.run as).acceptor = .stopped) : Resolved ch (ch.run as) := by
  constructor
  · cases ho : (ch.run as).accepted with
    | none => simp [accepted?, ho, hs]
    | some o => cases o <;> simp [accepted?, ho]
  · intro r hr
    exact ha.accepted?_run hi hr as
  · intro r hr
    exact ha.complete?_run hi hr as
  · exact (ha.run hi as).refused hs

/-! ## Closing -/

/-- What closing finds in the worker slot is what was there before, if anything was. -/
theorem slot_of_atShutdown {as : List Action} (h : ch.atShutdown? as = some x)
    (hs : ch.slot = some l) : x.slot = some l := by
  obtain ⟨before, a, after, -, rfl, -⟩ := atShutdown_split h
  exact slot_run hs before

namespace Whole

/-- Once all is settled behind closing, the connection that was found in the worker slot was let go,
unless the system refused. -/
theorem letGo (h : ch.Whole) {as : List Action} (hx : ch.atShutdown? as = some x)
    (hr : (ch.run as).Rests) (hc : (ch.run as).closed = true) (hl : x.slot = some l)
    (hf : x.faults.shutdown = none) : (ch.run as).LetGo l := by
  have hreleased := released_of_atShutdown h.inv h.accounts.tracks.answers hx hl hf
  apply hreleased.letGo hr.settled
  apply ((h.run as).vacant hr hc).acceptor.resolve_left
  intro ha
  have hclaim := hreleased.inv.accepts.claim
  rw [ha, hreleased.slot] at hclaim
  cases hclaim.absent.1

/-- Whoever waited when the channel was closed is answered once all is settled. -/
theorem resolved (h : ch.Whole) (ha : ch.acceptor ≠ .absent) {as : List Action}
    (hr : (ch.run as).Rests) (hc : (ch.run as).closed = true) : Resolved ch (ch.run as) := by
  apply resolved_of_stopped h.inv h.accounts.tracks.answers
  apply ((h.run as).vacant hr hc).acceptor.resolve_left
  exact run_keeps (P := fun y => y.acceptor ≠ .absent) (fun h m => m.acceptor_ne_absent h) ha as

end Whole

/-- From every settled state of every run. Whatever happens while a call closes the channel, it
attempts both releases, answers with what they gave, and tells all that moves traffic to stop. Once
all is settled again the state is `closed`, no relay is pending, nobody works for the channel and
nobody is let in. Whoever waited is answered: what was known before stays, and with no connection in
the worker slot, as there is none if none was there before and no client has connected, the answer
is an error. The connection that closing found in the slot, which is the one that was there before,
is shut down, unless the system refused to; its worker was accepted, and the wait for its
verification has an outcome, that it was closed early if not as many bytes came as the token has.

From a settled state of a closed channel on, whatever happens, all of this stays. Nothing is given
to the handler or to the console, and nothing is written to a client. Another call to close the
channel returns without an error, and any number of them changes nothing but the calls that were
made. -/
theorem closing_complete_and_final {m : Machine} {faults : Faults} {config : Config}
    {fresh : SessionId} {port : UInt16} {shape : Json.Shape} {start : Channel}
    (hstart : create m faults config fresh port shape = .ok start) (actions : List Action) :
    let ch := start.run actions
    ch.Rests →
      (ch.closed = false → ∀ during, 7 ≤ during.countP (·.goesOn ch.calls.length) →
        let closing := .begin .close :: during
        let x := ch.run closing
        (∃ w r, ch.releases closing = [w, r] ∧
          x.calls[ch.calls.length]? = some (.returned (closeAnswer w r))) ∧
        Aborts ch x ∧
        ∃ found, ch.atShutdown? closing = some found ∧
          (∀ l, ch.slot = some l → found.slot = some l) ∧
          (x.Rests →
            x.state = .closed ∧ x.pendingRelays = 0 ∧ x.Vacant ∧
            (ch.acceptor ≠ .absent → Resolved ch x ∧
              (x.links.length = ch.links.length → x.slot = ch.slot)) ∧
            ∀ l, found.slot = some l → found.faults.shutdown = none → x.LetGo l)) ∧
      (ch.closed = true →
        (∀ later, let y := ch.run later
          y.state = .closed ∧ y.pendingRelays = 0 ∧ y.Vacant ∧ Still ch y ∧
          ∀ after, y.canBegin Request.close.call = true →
            1 ≤ after.countP (·.goesOn y.calls.length) →
            (y.run (.begin .close :: after)).calls[y.calls.length]? = some (.returned (.ok ()))) ∧
        ∀ as bs, Relation.ReflTransGen (ch.AddsCall .close fun y _ => y.closed = true) as bs →
          ch.run as = { ch.run bs with calls := (ch.run as).calls } ∧
            (ch.run as).calls.Sublist (ch.run bs).calls) := by
  intro ch hr
  have h : ch.Whole := (Whole.of_create hstart).run actions
  refine ⟨fun ho during hn => ?_, fun hc => ⟨fun later => ?_, ?_⟩⟩
  · intro closing x
    have hb : ch.canBegin Request.close.call = true := by
      simp only [canBegin, (h.inv.open_of ho).dropped, Bool.not_false, Bool.true_and,
        List.all_eq_true]
      intro c hc
      rw [hr.returned c hc]
      rfl
    obtain ⟨hclosed, hanswer⟩ := hasClosed_of_begin h.accounts.tracks.closes ho hb hn
    have hopen : ¬ ch.HasPassed 2 := fun hp => by
      rw [hp.1] at ho
      cases ho
    obtain ⟨found, hfound⟩ := exists_atShutdown hopen closing (hclosed.passed 2)
    refine ⟨hanswer, h.aborts hr hclosed, found, hfound, fun l => slot_of_atShutdown hfound, ?_⟩
    intro hrx
    have hfinal := (h.run closing).final hrx hclosed.1
    refine ⟨hfinal.state_eq, hfinal.pendingRelays_eq, hfinal.vacant, fun ha => ⟨?_, ?_⟩, ?_⟩
    · exact h.resolved ha hrx hclosed.1
    · exact slot_eq_of_clients h.inv.accepts (h.arrivals_eq hr ha) closing
    · exact fun l hl hf => h.letGo hfound hrx hclosed.1 hl hf
  · intro y
    have hfinal : y.Final := (h.final hr hc).run later
    refine ⟨hfinal.state_eq, hfinal.pendingRelays_eq, hfinal.vacant,
      (h.final hr hc).still_run later,
      fun after hb hn => returned_of_begin_close hfinal.closed.1 hb hn⟩
  · exact fun as bs => run_eq_of_addsCall rfl fun y bs hb hc =>
      (ClosingAgain.begun (step_closed hc _)).idles (calls_step_begin hb) bs

/-- A worker was accepted and has not sent its token. -/
def exampleSilentWorker : List Action :=
  exampleArrival ++ List.replicate 7 (.task .acceptor) ++ [.task .verifier]

/-- The steps of closing, and then those that are left to take. -/
def exampleSettlingDown : List Action :=
  List.replicate 7 (.call 1) ++ .task .acceptor :: List.replicate 5 (.task .verifier)

theorem closing_complete_and_final_of_exampleSilentWorker :
    let ch := exampleStart.run exampleSilentWorker
    let x := ch.run (.begin .close :: exampleSettlingDown)
    (∃ w r, x.calls[1]? = some (.returned (closeAnswer w r))) ∧ x.LetGo 0 ∧
      ∀ later, (x.run later).state = .closed ∧ (x.run later).handled = x.handled := by
  intro ch x
  have hr : ch.Rests := by decide +kernel
  have hx : x.Rests := by decide +kernel
  obtain ⟨hclosing, -⟩ := closing_complete_and_final create_exampleStart exampleSilentWorker hr
  obtain ⟨⟨w, r, -, hanswer⟩, -, found, hfound, -, hdown⟩ :=
    hclosing (by decide +kernel) exampleSettlingDown (by decide +kernel)
  obtain ⟨-, -, -, -, hletGo⟩ := hdown hx
  have hlooks : (ch.atShutdown? (.begin .close :: exampleSettlingDown)).map
      (fun x => (x.slot, x.faults.shutdown)) = some (some 0, none) := by decide +kernel
  rw [hfound, Option.map_some, Option.some.injEq, Prod.mk.injEq] at hlooks
  have hrun : exampleStart.run (exampleSilentWorker ++ .begin .close :: exampleSettlingDown) = x :=
    List.foldl_append
  obtain ⟨-, hfinal⟩ := closing_complete_and_final create_exampleStart
    (exampleSilentWorker ++ .begin .close :: exampleSettlingDown) (hrun ▸ hx)
  rw [hrun] at hfinal
  obtain ⟨hlater, -⟩ := hfinal (by decide +kernel)
  refine ⟨⟨w, r, hanswer⟩, hletGo 0 hlooks.1 hlooks.2, fun later => ?_⟩
  obtain ⟨hstate, -, -, hstill, -⟩ := hlater later
  exact ⟨hstate, hstill.handled⟩

/-- The system refuses to shut the worker's connection down when the channel is closed. -/
def exampleRefused : List Action :=
  exampleSilentWorker ++ [.setFaults { shutdown := some Errno.brokenPipe }]

/-- Nobody has connected yet to be accepted. -/
def exampleAccepting : List Action := [.begin .connect, .call 0, .call 0, .call 0, .call 0]

/-- While the channel is closed a client connects, which is accepted before closing looks for a
worker and comes into the slot behind its back. -/
def exampleLateClaim : List Action :=
  [.begin .close, .call 1, .call 1, .join, .task .acceptor, .task .acceptor] ++
    List.replicate 5 (.call 1) ++ List.replicate 6 (.task .acceptor) ++ [.task .verifier]

/-- A channel that has settled is closed, and when all has settled again a worker is in the slot
that was not let go, with a wait for its verification that only the worker can end: if the system
refuses to shut its connection down, and if the worker connects while the channel is closed. -/
theorem worker_outlives_closing :
    (let ch := exampleStart.run exampleRefused
      let x := ch.run (exampleClosing ++ [.task .acceptor])
      ch.Rests ∧ ch.closed = false ∧ ch.slot = some 0 ∧ x.Rests ∧ x.IsOutlivedBy 0) ∧
    (let ch := exampleStart.run exampleAccepting
      let x := ch.run exampleLateClaim
      ch.Rests ∧ ch.closed = false ∧ ch.slot = none ∧ x.Rests ∧ x.IsOutlivedBy 0) := by
  decide +kernel

end WorkerLink.Channel
