import WorkerLink.Proofs.Channel.LinkMoves

/-!
# A channel that was not closed

Nothing is told to stop, released or shut down before the channel is closed (`Open`). The one
exception are the connections that were turned away.
-/

namespace WorkerLink

theorem Lifecycle.advance_ne_closed {s next : Lifecycle} (hs : s ≠ .closed) (hn : next ≠ .closed) :
    s.advance next ≠ .closed := by
  cases s <;> cases next <;> simp_all [Lifecycle.advance]

namespace Channel

variable {ch ch' : Channel} {a : Action}

/-- How a channel looks that was not closed. -/
structure Open (ch : Channel) : Prop where
  state : ch.state ≠ .closed
  acceptor : ch.acceptorAborted = false
  consumer : ch.consumer.aborted = false
  producer : ch.producer.aborted = false
  relay : ch.relay.aborted = false
  dropped : ch.dropped = false
  hands : ch.hands = 1
  verifier : ch.verifier ≠ .wiring .abort
  calls : ∀ c ∈ ch.calls, c.isClosing = false
  outbound : ∀ l ∈ ch.arrivals, (ch.link l).outbound.ended = false

/-! ## Being closed is final -/

theorem WiringMove.closed_eq {w w' : Wiring} (m : WiringMove ch w ch' w') :
    ch'.closed = ch.closed := by
  cases m <;> rfl

theorem CallMove.closed_of_closed {c c' : Call} (m : CallMove ch c ch' c')
    (h : ch.closed = true) : ch'.closed = true := by
  cases m with
  | wire m | wired m => rw [m.closed_eq, h]
  | close => rfl
  | _ => exact h

theorem Move.closed_of_closed (m : Move ch a ch') (h : ch.closed = true) : ch'.closed = true := by
  cases m with
  | acceptor m => cases m <;> exact h
  | verifier m =>
    cases m with
    | wire _ m | wired _ m => rw [m.closed_eq, h]
    | _ => exact h
  | consumer m => cases m <;> exact h
  | producer m => cases m <;> exact h
  | relay m => cases m <;> exact h
  | call _ m => exact m.closed_of_closed h
  | _ => exact h

theorem Move.open_of_open (m : Move ch a ch') (h : ch'.closed = false) : ch.closed = false := by
  cases hc : ch.closed with
  | false => rfl
  | true => rw [m.closed_of_closed hc] at h; exact h

/-! ## What happens to a channel that is open -/

theorem AcceptorMove.open (m : AcceptorMove ch ch') (h : ch.Open) :
    ch'.state ≠ .closed ∧ ch'.acceptorAborted = ch.acceptorAborted ∧ ch'.consumer = ch.consumer ∧
      ch'.producer = ch.producer ∧ ch'.relay = ch.relay ∧ ch'.dropped = ch.dropped ∧
      ch'.calls = ch.calls := by
  cases m with
  | accept | fail =>
    exact ⟨Lifecycle.advance_ne_closed h.state nofun, rfl, rfl, rfl, rfl, rfl, rfl⟩
  | _ => exact ⟨h.state, rfl, rfl, rfl, rfl, rfl, rfl⟩

theorem AcceptorMove.verifier_ne (m : AcceptorMove ch ch')
    (h : ch.verifier ≠ .wiring .abort) : ch'.verifier ≠ .wiring .abort := by
  cases m with
  | verify | verifyBlind => nofun
  | _ => exact h

theorem VerifierMove.calls_eq (m : VerifierMove ch ch') : ch'.calls = ch.calls := by
  cases m with
  | wire _ m | wired _ m => exact m.accepting.2.2.1
  | _ => rfl

theorem WiringMove.open {w w' : Wiring} (m : WiringMove ch w ch' w') (h : ch.Open)
    (hc : ch.closed = false) (hw : w ≠ .abort) :
    w' ≠ .abort ∧ ch'.state ≠ .closed ∧ ch'.acceptorAborted = false ∧
      ch'.consumer.aborted = false ∧ ch'.producer.aborted = false ∧ ch'.relay.aborted = false ∧
      ch'.dropped = false := by
  cases m with
  | abort => exact (hw rfl).elim
  | recheckClosed hcl =>
    rw [hc] at hcl
    cases hcl
  | fail | announce =>
    exact ⟨nofun, Lifecycle.advance_ne_closed h.state nofun, h.acceptor, h.consumer, h.producer,
      h.relay, h.dropped⟩
  | _ => exact ⟨nofun, h.state, h.acceptor, h.consumer, h.producer, h.relay, h.dropped⟩

theorem VerifierMove.open (m : VerifierMove ch ch') (h : ch.Open) (hc : ch.closed = false) :
    ch'.verifier ≠ .wiring .abort ∧ ch'.state ≠ .closed ∧ ch'.acceptorAborted = false ∧
      ch'.consumer.aborted = false ∧ ch'.producer.aborted = false ∧ ch'.relay.aborted = false ∧
      ch'.dropped = false := by
  cases m with
  | wire hv m hw' =>
    obtain ⟨hw, hrest⟩ := m.open h hc fun he => h.verifier (he ▸ hv)
    exact ⟨fun he => hw (Verifier.wiring.inj he), hrest⟩
  | wired hv m => exact ⟨nofun, (m.open h hc fun he => h.verifier (he ▸ hv)).2⟩
  | begin =>
    exact ⟨nofun, Lifecycle.advance_ne_closed h.state nofun, h.acceptor, h.consumer, h.producer,
      h.relay, h.dropped⟩
  | @judge o =>
    refine ⟨nofun, Lifecycle.advance_ne_closed h.state ?_, h.acceptor, h.consumer, h.producer,
      h.relay, h.dropped⟩
    split <;> nofun
  | _ => exact ⟨nofun, h.state, h.acceptor, h.consumer, h.producer, h.relay, h.dropped⟩

theorem CallMove.open {c c' : Call} (m : CallMove ch c ch' c') (h : ch.Open)
    (hc : ch'.closed = false) (hcl : c.isClosing = false) :
    c'.isClosing = false ∧ ch'.verifier ≠ .wiring .abort ∧ ch'.state ≠ .closed ∧
      ch'.acceptorAborted = false ∧ ch'.consumer.aborted = false ∧
      ch'.producer.aborted = false ∧ ch'.relay.aborted = false ∧ ch'.dropped = false := by
  have ho : ch.closed = false := by
    cases hx : ch.closed with
    | false => rfl
    | true => rw [m.closed_of_closed hx] at hc; exact hc
  cases m with
  | announceAccepting =>
    exact ⟨rfl, h.verifier, Lifecycle.advance_ne_closed h.state nofun, h.acceptor, h.consumer,
      h.producer, h.relay, h.dropped⟩
  | wire m _ =>
    rename_i w w' _
    have hw : w ≠ .abort := fun he => by simp [he, Call.isClosing] at hcl
    obtain ⟨hw', hrest⟩ := m.open h ho hw
    refine ⟨?_, ?_, hrest⟩
    · cases w' <;> first | rfl | exact (hw' rfl).elim
    · rw [m.accepting.2.2.2.2.2.2.2]
      exact h.verifier
  | wired m =>
    rename_i w
    have hw : w ≠ .abort := fun he => by simp [he, Call.isClosing] at hcl
    refine ⟨rfl, ?_, (m.open h ho hw).2⟩
    rw [m.accepting.2.2.2.2.2.2.2]
    exact h.verifier
  | close => cases hc
  | alreadyClosed hx => rw [ho] at hx; cases hx
  | announceClosed | shutNobody | shutWorker | shutFailed | releaseListener | abortAcceptor
  | abortStreams | abortConsole | giveBack => cases hcl
  | _ =>
    exact ⟨rfl, h.verifier, h.state, h.acceptor, h.consumer, h.producer, h.relay, h.dropped⟩

/-- The way back of a connection that is not turned away stays open. -/
theorem Move.outbound_open (m : Move ch a ch') (hacc : ch.Accepts) (h : ch.Open) :
    ∀ l ∈ ch'.arrivals, (ch'.link l).outbound.ended = false := by
  intro l hl
  have old : l ∈ ch.arrivals ∨ ch.link l = {} := by
    rcases (m.accepting hacc).2 with ⟨hs, -⟩ | ⟨ha, -⟩
    · exact .inl (hs.subset hl)
    · rw [ha, List.mem_append, List.mem_singleton] at hl
      exact hl.imp_right fun he => link_of_length_le (Nat.le_of_eq he.symm)
  have ended : (ch.link l).outbound.ended = false := by
    rcases old with ho | ho
    · exact h.outbound l ho
    · rw [ho]
  cases m.link hacc l with
  | same he => rw [he, ended]
  | client ha he => rw [he, (Action.byClient ha _).ended, ended]
  | turnedAway hn => exact (hn hl).elim
  | reclaimed _ hd =>
    rw [h.dropped] at hd
    cases hd
  | shutDown _ hm hc =>
    rw [h.calls _ hm] at hc
    cases hc
  | read _ _ _ he =>
    rw [he]
    exact ended
  | written _ _ hw he =>
    obtain ⟨-, rfl⟩ := Stream.write_inv hw
    rw [he]
    exact ended

/-- Unless a move closes the channel, it stays open. -/
theorem Open.keeps (h : ch.Open) (hacc : ch.Accepts) (m : Move ch a ch')
    (hc : ch'.closed = false) : ch'.Open := by
  have ho := m.open_of_open hc
  have hout := m.outbound_open hacc h
  have hh : ch'.hands = 1 := by
    rcases m.hands_cases hacc.hands with he | ⟨⟨c, hm, hcl⟩, -⟩
    · rw [he, h.hands]
    · rw [h.calls c hm] at hcl
      cases hcl
  cases m with
  | acceptor m =>
    obtain ⟨hs, ha, hco, hp, hr, hd, hcalls⟩ := m.open h
    exact ⟨hs, ha ▸ h.acceptor, hco ▸ h.consumer, hp ▸ h.producer, hr ▸ h.relay, hd ▸ h.dropped,
      hh, m.verifier_ne h.verifier, hcalls ▸ h.calls, hout⟩
  | verifier m =>
    obtain ⟨hv, hs, ha, hco, hp, hr, hd⟩ := m.open h ho
    exact ⟨hs, ha, hco, hp, hr, hd, hh, hv, m.calls_eq ▸ h.calls, hout⟩
  | consumer m =>
    cases m <;> exact ⟨h.state, h.acceptor, h.consumer, h.producer, h.relay, h.dropped, hh,
      h.verifier, h.calls, hout⟩
  | producer m =>
    cases m <;> exact ⟨h.state, h.acceptor, h.consumer, h.producer, h.relay, h.dropped, hh,
      h.verifier, h.calls, hout⟩
  | relay m =>
    cases m <;> exact ⟨h.state, h.acceptor, h.consumer, h.producer, h.relay, h.dropped, hh,
      h.verifier, h.calls, hout⟩
  | reclaimer hd =>
    rw [h.dropped] at hd
    cases hd
  | @begin r =>
    refine ⟨h.state, h.acceptor, h.consumer, h.producer, h.relay, h.dropped, hh, h.verifier, ?_,
      hout⟩
    intro c hm
    rcases List.mem_append.1 hm with hm | hm
    · exact h.calls c hm
    · rw [List.mem_singleton.1 hm]
      cases r <;> rfl
  | call hi m =>
    obtain ⟨hcl, hv, hs, ha, hco, hp, hr, hd⟩ := m.open h hc (h.calls _ (List.mem_of_getElem? hi))
    refine ⟨hs, ha, hco, hp, hr, hd, hh, hv, ?_, hout⟩
    intro c hm
    rcases List.mem_or_eq_of_mem_set hm with hm | rfl
    · exact h.calls c (m.calls_eq ▸ hm)
    · exact hcl
  | _ =>
    exact ⟨h.state, h.acceptor, h.consumer, h.producer, h.relay, h.dropped, hh, h.verifier,
      h.calls, hout⟩

end Channel

end WorkerLink
