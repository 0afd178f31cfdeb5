import WorkerLink.Proofs.Channel.Accepting
import WorkerLink.Proofs.Frame.Reading

/-!
# What a move does to a connection

Most moves leave a connection alone. `LinkMove` lists the ones that do not: a client acts on its
own connection, one that is turned away is released, and only the one in the worker slot is read,
written, shut down or, once the channel is dropped, released.
-/

namespace WorkerLink.Channel

variable {ch ch' : Channel} {a : Action} {k : LinkId}

/-- What a move can do to a connection. -/
inductive LinkMove (ch : Channel) (a : Action) (ch' : Channel) (k : LinkId) : Prop where
  | same (h : ch'.link k = ch.link k)
  | client {f : Link → Link} (ha : a.client? = some (k, f)) (h : ch'.link k = f (ch.link k))
  | turnedAway (hk : k ∉ ch'.arrivals) (h : ch'.link k = (ch.link k).release)
  | reclaimed (hs : ch.slot = some k) (hd : ch.dropped = true)
      (h : ch'.link k = (ch.link k).release)
  | shutDown {c : Call} (hs : ch.slot = some k) (hc : c ∈ ch.calls) (hcl : c.isClosing = true)
      (h : ch'.link k = (ch.link k).shutDown)
  | read {s : Stream} (ha : a = .task .verifier ∨ a = .task .consumer) (hs : ch.slot = some k)
      (hr : s = (ch.link k).inbound ∨ ∃ limit, s = ((ch.link k).inbound.receive limit).2)
      (h : ch'.link k = { ch.link k with inbound := s })
  | written {b : Bytes} {s : Stream} (ha : a = .task .producer) (hs : ch.slot = some k)
      (hw : (ch.link k).outbound.write b = .ok s)
      (h : ch'.link k = { ch.link k with outbound := s })

theorem link_released (h : k ∉ ch.backlog) (hl : ch'.links = released ch.links ch.backlog) :
    ch'.link k = ch.link k := by
  rw [link, hl, getD_released_of_notMem h, link]

theorem getD_released_of_mem {links : List Link} {ls : List LinkId} (hn : ls.Nodup)
    (hk : k ∈ ls) (hl : k < links.length) :
    (released links ls).getD k {} = (links.getD k {}).release := by
  induction ls generalizing links with
  | nil => cases hk
  | cons l ls ih =>
    rw [List.nodup_cons] at hn
    rw [released, List.foldl_cons, ← released]
    rcases List.mem_cons.1 hk with rfl | hk
    · rw [getD_released_of_notMem hn.1]
      simp [hl]
    · have hne : l ≠ k := fun he => hn.1 (he ▸ hk)
      rw [ih hn.2 hk (by simpa using hl)]
      simp [hne]

theorem link_join (ch : Channel) (k : LinkId) (b : List LinkId) :
    link { ch with links := ch.links ++ [{}], backlog := b } k = ch.link k :=
  getD_append_default ..

/-- When nobody listens any more the connections that nobody accepted are released. -/
theorem LinkMove.of_released (h : ch.Accepts) (hl : ch'.links = released ch.links ch.backlog)
    (hb : ch'.backlog = []) (hs : ch'.slot = ch.slot) (ht : ch'.acceptor.taken? = none ∨
      ch'.acceptor = ch.acceptor) : LinkMove ch a ch' k := by
  by_cases hk : k ∈ ch.backlog
  · have hn := h.nodup
    simp only [arrivals, List.nodup_append, List.mem_append] at hn
    refine .turnedAway ?_ ?_
    · intro hm
      simp only [arrivals, hb, hs, List.append_nil, List.mem_append] at hm
      rcases hm with hm | hm
      · exact hn.2.2 k (.inl hm) k hk rfl
      · rcases ht with ht | ht
        · rw [ht] at hm
          cases hm
        · rw [ht] at hm
          exact hn.2.2 k (.inr hm) k hk rfl
    · have hlt : k < ch.links.length := h.known k (by simp [arrivals, hk])
      rw [link, hl, getD_released_of_mem hn.2.1 hk hlt, link]
  · exact .same (link_released hk hl)

/-- A change of the connection in the worker slot is none of any other. -/
theorem LinkMove.of_onLink {l : LinkId} {f : Link → Link} (hl : ch'.links = (ch.onLink l f).links)
    (h : ch'.link l = f (ch.link l) → LinkMove ch a ch' l) : LinkMove ch a ch' k := by
  have eq (i : LinkId) : ch'.link i = (ch.onLink l f).link i := by rw [link, hl, link]
  by_cases hk : l = k ∧ k < ch.links.length
  · obtain ⟨rfl, hlt⟩ := hk
    exact h (by rw [eq, link_onLink_self hlt])
  · exact .same (by rw [eq, link_onLink, if_neg hk])

theorem AcceptorMove.link (m : AcceptorMove ch ch') (h : ch.Accepts) :
    LinkMove ch a ch' k := by
  cases m with
  | abort | giveUp | report => exact .of_released h rfl rfl rfl (.inl rfl)
  | turnAway ha hs =>
    rename_i l x
    refine .of_onLink (f := Link.release) rfl fun he => .turnedAway ?_ he
    have hn := h.nodup
    simp only [Channel.arrivals, ha, Acceptor.taken?, Option.toList_some, List.nodup_append,
      List.mem_append, List.mem_singleton] at hn
    intro hm
    simp only [Channel.arrivals, Acceptor.taken?, Option.toList_none, List.append_nil,
      List.mem_append] at hm
    rcases hm with hm | hm
    · exact hn.1.2.2 l hm l rfl rfl
    · exact hn.2.2 l (.inr rfl) l hm rfl
  | _ => exact .same rfl

theorem VerifierMove.link (m : VerifierMove ch ch') : LinkMove ch (.task .verifier) ch' k := by
  cases m with
  | read _ hs hr | complete _ hs hr | ended _ hs hr | broke _ hs hr =>
    exact .of_onLink rfl fun he => .read (.inl rfl) hs (.inr ⟨_, by rw [hr]⟩) he
  | wire _ m | wired _ m =>
    exact .same (by simp only [Channel.link, m.accepting.2.2.2.2.2.2.1])
  | _ => exact .same rfl

theorem CallMove.link {c c' : Call} {cs : List Call} (m : CallMove ch c ch' c')
    (hc : c ∈ ch.calls) (h : ch.Accepts) : LinkMove ch a { ch' with calls := cs } k := by
  cases m with
  | shutWorker hs => exact .of_onLink rfl fun he => .shutDown hs hc rfl he
  | releaseListener => exact .of_released h rfl rfl rfl (.inr rfl)
  | wire m | wired m =>
    exact .same (by simp only [Channel.link, m.accepting.2.2.2.2.2.2.1])
  | _ => exact .same rfl

theorem Move.link (m : Move ch a ch') (h : ch.Accepts) (k : LinkId) : LinkMove ch a ch' k := by
  cases m with
  | acceptor m => exact m.link h
  | verifier m => exact m.link
  | consumer m =>
    cases m with
    | halt => exact .same rfl
    | @arrived l r s _ _ _ hs hr | @item l _ r s _ _ _ hs hr | @failed l _ r s _ _ _ hs hr
    | @ended l r s _ _ _ hs hr =>
      refine .of_onLink rfl fun he => .read (.inr rfl) hs ?_ he
      have hstep := ch.reader.step_stream ch.codec (ch.link l).inbound
      rwa [hr] at hstep
  | producer m =>
    cases m with
    | sent _ hs _ _ _ hw => exact .of_onLink rfl fun he => .written rfl hs hw he
    | _ => exact .same rfl
  | relay m => cases m <;> exact .same rfl
  | reclaimer hd =>
    cases hs : ch.slot with
    | none => exact .same (by simp [Channel.link])
    | some l => exact .of_onLink (l := l) rfl fun he => .reclaimed hs hd he
  | call hi m => exact m.link (List.mem_of_getElem? hi) h
  | join => exact .same (link_join ..)
  | client ha => exact .of_onLink rfl fun he => .client ha he
  | _ => exact .same rfl

/-- The worker slot is claimed for good. -/
theorem Move.slot_eq (m : Move ch a ch') {l : LinkId} (h : ch.slot = some l) :
    ch'.slot = some l := by
  cases m with
  | acceptor m =>
    cases m with
    | claim _ hs => rw [h] at hs; cases hs
    | _ => exact h
  | verifier m => rw [m.accepting.2.1, h]
  | consumer m => cases m <;> exact h
  | producer m => cases m <;> exact h
  | relay m => cases m <;> exact h
  | call _ m =>
    cases m with
    | wire m | wired m => exact m.accepting.2.2.2.1.trans h
    | _ => exact h
  | _ => exact h

theorem slot_run {l : LinkId} (h : ch.slot = some l) (as : List Action) :
    (ch.run as).slot = some l :=
  run_keeps (P := fun ch => ch.slot = some l) (fun h m => m.slot_eq h) h as

/-- Unless verification or the event consumer takes a step, nothing is read. -/
theorem Move.inbound_grows (m : Move ch a ch') (h : ch.Accepts) (hv : a ≠ .task .verifier)
    (hc : a ≠ .task .consumer) (k : LinkId) :
    (ch.link k).inbound.Grows (ch'.link k).inbound := by
  cases m.link h k with
  | same he =>
    rw [he]
    exact .refl _
  | client ha he =>
    rw [he]
    exact (Action.byClient ha _).inbound
  | turnedAway _ he | reclaimed _ _ he | shutDown _ _ _ he =>
    rw [he]
    exact Stream.grows_abandon _
  | read ha => exact (ha.elim hv hc).elim
  | written _ _ _ he =>
    rw [he]
    exact .refl _

/-- Unless the command producer takes a step, nothing is written. -/
theorem Move.written_eq (m : Move ch a ch') (h : ch.Accepts) (hp : a ≠ .task .producer)
    (k : LinkId) : (ch'.link k).outbound.written = (ch.link k).outbound.written := by
  cases m.link h k with
  | same he => rw [he]
  | client ha he => rw [he, (Action.byClient ha _).written]
  | turnedAway _ he | reclaimed _ _ he | shutDown _ _ _ he =>
    rw [he]
    exact Stream.written_finish ..
  | read _ _ _ he => rw [he]
  | written ha => exact (hp ha).elim

/-- Only the connection in the worker slot is read or written. -/
theorem Move.silent (m : Move ch a ch') (h : ch.Accepts) (hk : ch.slot ≠ some k) :
    (ch.link k).inbound.Grows (ch'.link k).inbound ∧
      (ch'.link k).outbound.written = (ch.link k).outbound.written := by
  cases m.link h k with
  | same he =>
    rw [he]
    exact ⟨.refl _, rfl⟩
  | client ha he =>
    rw [he]
    exact ⟨(Action.byClient ha _).inbound, (Action.byClient ha _).written⟩
  | turnedAway _ he =>
    rw [he]
    exact ⟨Stream.grows_abandon _, Stream.written_finish ..⟩
  | reclaimed hs | shutDown hs | read _ hs | written _ hs => exact (hk hs).elim

end WorkerLink.Channel
