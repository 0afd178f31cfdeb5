import WorkerLink.Proofs.Channel.Calm

/-!
# A single client

A channel with one client that does not give up (`Alone`): nobody takes its connection away, and
what arrives over it is what the client sends (`Link.Sends`).
-/

namespace WorkerLink

/-- Whether a client acts on what the channel reads. -/
def Action.ofClient : Action → Bool
  | .join | .send .. | .finish _ | .leave _ | .reset _ => true
  | _ => false

/-- A client has sent `b` over a connection that neither side has given up; `ended` says whether it
has ended its stream. -/
structure Link.Sends (l : Link) (b : Bytes) (ended : Bool) : Prop where
  written : l.inbound.written = b
  ended : l.inbound.ended = ended
  broken : l.inbound.broken = false
  abandoned : l.inbound.abandoned = false
  kept : l.outbound.abandoned = false

namespace Link.Sends

variable {l : Link} {b c : Bytes} {ended : Bool}

theorem fresh : Link.Sends {} [] false := ⟨rfl, rfl, rfl, rfl, rfl⟩

theorem isWritable (h : l.Sends b ended) : l.inbound.isWritable = !ended := by
  rw [Stream.isWritable, h.ended, h.abandoned, Bool.not_false, Bool.and_true]

theorem read (h : l.Sends b ended) (limit : Nat) :
    Link.Sends { l with inbound := (l.inbound.receive limit).2 } b ended := by
  have hw := l.inbound.written_receive limit
  obtain ⟨x, rest, broken, -, hb, hr⟩ := l.inbound.receive_frame limit
  refine ⟨hw.trans h.written, by rw [hr]; exact h.ended, ?_, by rw [hr]; exact h.abandoned, h.kept⟩
  rw [hr]
  cases hbr : broken with
  | false => rfl
  | true =>
    have hn := hb hbr
    rw [h.broken] at hn
    cases hn

theorem write (h : l.Sends b ended) {s : Stream} (hw : l.outbound.write c = .ok s) :
    Link.Sends { l with outbound := s } b ended := by
  obtain ⟨-, rfl⟩ := Stream.write_inv hw
  exact ⟨h.written, h.ended, h.broken, h.abandoned, h.kept⟩

theorem fetch (h : l.Sends b ended) : Link.Sends (Channel.clientFetch l) b ended := by
  obtain ⟨x, rest, broken, -, -, hr⟩ := l.outbound.receive_frame l.outbound.unread.length
  refine ⟨h.written, h.ended, h.broken, h.abandoned, ?_⟩
  rw [Channel.clientFetch, Stream.receiveAll, hr]
  exact h.kept

theorem send (h : l.Sends b false) (c : Bytes) :
    Link.Sends (Channel.clientSend l c) (b ++ c) false := by
  have hw := h.isWritable
  simp only [Channel.clientSend, Stream.write, hw]
  refine ⟨?_, h.ended, h.broken, h.abandoned, h.kept⟩
  rw [← h.written]
  simp [Stream.written]

theorem finish (h : l.Sends b ended) : l.clientFinish.Sends b true :=
  ⟨(Stream.written_finish _).trans h.written, rfl, h.broken, h.abandoned, h.kept⟩

end Link.Sends

namespace Channel

variable {ch ch' : Channel} {a : Action} {b c : Bytes} {ended : Bool}

/-- No client has connected. -/
structure Deserted (ch : Channel) : Prop where
  links : ch.links.length = 0
  arrivals : ch.arrivals = []

/-- One client has connected, and has sent `b`. -/
structure Alone (ch : Channel) (b : Bytes) (ended : Bool) : Prop where
  links : ch.links.length = 1
  arrivals : ch.arrivals = [0]
  sends : (ch.link 0).Sends b ended

/-! ## Who is there -/

theorem AcceptorMove.arrivals_eq (m : AcceptorMove ch ch') (h : ch.Calm) (ho : ch.Open)
    (hl : ch.arrivals.length ≤ 1) :
    ch'.arrivals = ch.arrivals ∧ ch'.links.length = ch.links.length := by
  have hopen := h.canOpen
  cases m with
  | abort _ ha =>
    rw [ho.acceptor] at ha
    cases ha
  | refuse _ hn | giveUp _ hn | verifyBlind _ hn =>
    rw [hopen] at hn
    cases hn
  | fail ha | report ha =>
    have hw := h.acceptor
    rw [ha] at hw
    cases hw
  | turnAway ha hs =>
    simp only [Channel.arrivals, ha, hs, Acceptor.taken?, Option.toList_some, List.length_append,
      List.length_singleton] at hl
    omega
  | take ha hb | claim ha hb => simp [Channel.arrivals, ha, hb, Acceptor.taken?, openDescriptor]
  | wake ha | wait ha | accept ha | skip ha | announce ha | verify ha =>
    simp [Channel.arrivals, ha, Acceptor.taken?, openDescriptor, advance]

/-- Unless a client connects, those that are there stay. -/
theorem Move.arrivals_eq (m : Move ch a ch') (h : ch.Calm) (hinv : ch.Inv)
    (hl : ch.arrivals.length ≤ 1) (ha : a ≠ .join) :
    ch'.arrivals = ch.arrivals ∧ ch'.links.length = ch.links.length := by
  have ho := hinv.open_of h.closed
  cases m with
  | acceptor m => exact m.arrivals_eq h ho hl
  | verifier m =>
    obtain ⟨hacc, hs, -, hb, hlen⟩ := m.accepting
    exact ⟨by rw [arrivals, arrivals, hacc, hs, hb], hlen⟩
  | consumer m => cases m <;> exact ⟨rfl, by simp⟩
  | producer m => cases m <;> exact ⟨rfl, by simp⟩
  | relay m => cases m <;> exact ⟨rfl, rfl⟩
  | reclaimer hd =>
    rw [ho.dropped] at hd
    cases hd
  | call hi m =>
    have hcalm := h.calls _ (List.mem_of_getElem? hi)
    cases m with
    | wire m | wired m =>
      obtain ⟨hacc, -, -, hs, -, hb, hlinks, -⟩ := m.accepting
      simp only [arrivals, hacc, hs, hb, hlinks, and_self]
    | spawnAcceptor =>
      have hacc := acceptor_absent hi rfl hinv.accepts.hands
      simp [arrivals, hacc, Acceptor.taken?]
    | disable | disableUnbound | cancel | close | announceClosed | shutNobody | shutWorker
    | shutFailed | releaseListener | abortAcceptor | abortStreams | abortConsole | alreadyClosed
    | giveBack => cases hcalm
    | _ => exact ⟨rfl, rfl⟩
  | join => exact (ha rfl).elim
  | client => exact ⟨rfl, by simp⟩
  | _ => exact ⟨rfl, rfl⟩

theorem Deserted.keeps (h : ch.Deserted) (m : Move ch a ch') (hc : ch.Calm) (hi : ch.Inv)
    (ha : a ≠ .join) : ch'.Deserted := by
  obtain ⟨harr, hlen⟩ := m.arrivals_eq hc hi (by rw [h.arrivals]; exact Nat.zero_le 1) ha
  exact ⟨hlen.trans h.links, harr.trans h.arrivals⟩

theorem Deserted.join (h : ch.Deserted) (hc : ch.Calm) : (ch.step .join).Alone [] false := by
  have hl : ch.links = [] := List.length_eq_zero_iff.1 h.links
  have harr := h.arrivals
  simp only [Channel.arrivals, List.append_eq_nil_iff] at harr
  simp only [step, Channel.join, if_neg hc.listener]
  refine ⟨by simp [hl], by simp [Channel.arrivals, harr, hl], ?_⟩
  have hlink : link { ch with links := ch.links ++ [{}]
                              backlog := ch.backlog ++ [ch.links.length] } 0 = {} := by
    rw [link_join, link_of_length_le (by rw [hl]; exact Nat.le_refl 0)]
  rw [hlink]
  exact .fresh

/-! ## What it sends -/

theorem Alone.onLink (h : ch.Alone b ended) {f : Link → Link} {e : Bool}
    (hf : (f (ch.link 0)).Sends c e) : (ch.onLink 0 f).Alone c e := by
  refine ⟨by rw [length_onLink, h.links], h.arrivals, ?_⟩
  rw [link_onLink_self (by rw [h.links]; exact Nat.one_pos)]
  exact hf

theorem Alone.send (h : ch.Alone b false) (c : Bytes) :
    (ch.step (.send 0 c)).Alone (b ++ c) false :=
  h.onLink (h.sends.send c)

theorem Alone.finish (h : ch.Alone b ended) : (ch.step (.finish 0)).Alone b true :=
  h.onLink h.sends.finish

theorem Move.sends (m : Move ch a ch') (h : (ch.link 0).Sends b ended) (hc : ch.Calm)
    (hi : ch.Inv) (ha : a.ofClient = false) (hm : 0 ∈ ch'.arrivals) :
    (ch'.link 0).Sends b ended := by
  have ho := hi.open_of hc.closed
  cases m.link hi.accepts 0 with
  | same he =>
    rw [he]
    exact h
  | client hx he =>
    rw [he]
    cases a with
    | fetch l =>
      cases hx
      exact h.fetch
    | send | finish | leave | reset => cases ha
    | _ => cases hx
  | turnedAway hk => exact (hk hm).elim
  | reclaimed _ hd =>
    rw [ho.dropped] at hd
    cases hd
  | shutDown _ hx hcl =>
    rw [ho.calls _ hx] at hcl
    cases hcl
  | read _ _ hr he =>
    rw [he]
    rcases hr with rfl | ⟨limit, rfl⟩
    · exact h
    · exact h.read limit
  | written _ _ hw he =>
    rw [he]
    exact h.write hw

theorem Alone.keeps (h : ch.Alone b ended) (m : Move ch a ch') (hc : ch.Calm) (hi : ch.Inv)
    (ha : a.ofClient = false) : ch'.Alone b ended := by
  obtain ⟨harr, hlen⟩ := m.arrivals_eq hc hi (by rw [h.arrivals]; exact Nat.le_refl 1)
    (by rintro rfl; cases ha)
  refine ⟨hlen.trans h.links, harr.trans h.arrivals, m.sends h.sends hc hi ha ?_⟩
  rw [harr, h.arrivals]
  exact List.mem_singleton_self 0

end Channel

end WorkerLink
