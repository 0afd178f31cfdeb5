import WorkerLink.Proofs.Channel.Token

/-!
# What the channel reads

Nothing is read of a connection that is not in the worker slot. Of the one that is, verification
reads the token, and the event consumer goes on behind it: what it gives to the handler is what the
bytes behind the token hold (`Hears`).
-/

namespace WorkerLink.Channel

variable {ch ch' : Channel} {a : Action} {l : LinkId} {s s' : Stream}

/-- How far the event consumer has come with a stream. -/
def Events (ch : Channel) (s : Stream) : Prop :=
  match ch.consumer.phase with
  | .absent => s.taken.length ≤ ch.session.length
  | .running => FrameReader.Follows ch.codec ch.session.length ch.reader s ch.handled
  | .stopped => FrameReader.Stopped ch.codec ch.session.length s ch.handled ∨
      (ch.closed = true ∨ ch.disabled = true) ∧ ch.session.length ≤ s.taken.length ∧
        ch.handled <+: (Decoder.ofBytes (s.taken.drop ch.session.length)).items ch.codec

/-- What has been read of the connection in the worker slot. -/
structure Hears (ch : Channel) (s : Stream) : Prop where
  token : Token ch.session ch.log ch.authentication s ch.verifier
  events : ch.Events s

/-- What holds of everything that is read whenever it is looked at. -/
structure Listens (ch : Channel) : Prop where
  sound : ∀ k, (ch.link k).inbound.IsSound
  idle : ch.consumer.phase = .absent → ch.reader = {} ∧ ch.handled = []
  silent : ∀ k, ch.slot ≠ some k → (ch.link k).inbound.taken = []
  hears : ∀ l, ch.slot = some l → ch.Hears (ch.link l).inbound

/-- Neither verification nor the event consumer has taken a step. -/
structure Pauses (ch ch' : Channel) : Prop where
  codec : ch'.codec = ch.codec
  session : ch'.session = ch.session
  verifier : ch'.verifier = ch.verifier
  authentication : ch'.authentication = ch.authentication
  phase : ch'.consumer.phase = ch.consumer.phase
  reader : ch'.reader = ch.reader
  handled : ch'.handled = ch.handled
  log : ∀ r ∈ ch.log, r ∈ ch'.log
  closed : ch.closed = true → ch'.closed = true
  disabled : ch.disabled = true → ch'.disabled = true

namespace Pauses

theorem events (p : Pauses ch ch') (g : s.Grows s') (h : ch.Events s) : ch'.Events s' := by
  unfold Events at h ⊢
  rw [p.phase, p.codec, p.session, p.reader, p.handled]
  cases hp : ch.consumer.phase with
  | absent =>
    rw [hp] at h
    exact g.taken ▸ h
  | running =>
    rw [hp] at h
    exact h.grows g
  | stopped =>
    rw [hp] at h
    exact h.imp (·.grows g) fun ⟨hc, hn, hv⟩ =>
      ⟨hc.imp p.closed p.disabled, g.taken ▸ hn, g.taken ▸ hv⟩

theorem hears (p : Pauses ch ch') (g : s.Grows s') (h : ch.Hears s) : ch'.Hears s' := by
  refine ⟨?_, p.events g h.events⟩
  rw [p.session, p.authentication, p.verifier]
  exact h.token.grows g p.log

end Pauses

/-! ## Moves that read nothing -/

theorem CallMove.pauses {c c' : Call} {cs : List Call} (m : CallMove ch c ch' c')
    (hw : c.wiring? = none) : Pauses ch { ch' with calls := cs } := by
  have e := @CallMove.extends ch ch' c c' cs m hw
  cases m with
  | cancel => exact ⟨rfl, rfl, rfl, rfl, rfl, rfl, rfl, e.log, e.closed, fun _ => rfl⟩
  | wire | wired => cases hw
  | _ => exact ⟨rfl, rfl, rfl, rfl, rfl, rfl, rfl, e.log, e.closed, id⟩

/-- Binding the streams, but for the step that starts the event consumer. -/
theorem WiringMove.pauses {w w' : Wiring} (m : WiringMove ch w ch' w')
    (hw : ∀ permit, w ≠ .spawnConsumer permit) : Pauses ch ch' := by
  cases m with
  | spawnConsumer => exact (hw _ rfl).elim
  | unverified | incomplete | unconnected =>
    exact ⟨rfl, rfl, rfl, rfl, rfl, rfl, rfl, fun _ => List.mem_append_left _, id, id⟩
  | _ => exact ⟨rfl, rfl, rfl, rfl, rfl, rfl, rfl, fun _ => id, id, id⟩

/-! ## Verification reads -/

theorem Gathers.phases (h : ch.Gathers) (hn : ch.authentication ≠ some .verified) :
    ch.consumer.phase = .absent ∧ ch.producer.phase = .absent := by
  have hs : ch.streams = {} := by
    by_cases hs : ch.streams = {}
    · exact hs
    · exact (hn (h.admitted hs).verified).elim
  simp only [Channel.streams, Task.isStarted, StreamsBound.mk.injEq, decide_eq_false_iff_not,
    Decidable.not_not] at hs
  exact ⟨hs.1, hs.2.2.1⟩

theorem Gathers.authentication_none (h : ch.Gathers) (hv : ch.verifier.isPending = true) :
    ch.authentication = none := by
  cases ho : ch.authentication with
  | none => rfl
  | some o =>
    have hs := h.shows
    rw [ho] at hs
    have hr := hs.isRecorded
    cases hx : ch.verifier <;> simp_all [Verifier.isPending, Verifier.isRecorded]

theorem events_absent (h : ch.consumer.phase = .absent) :
    ch.Events s ↔ s.taken.length ≤ ch.session.length := by
  simp [Events, h]

/-- While verification reads, it is the only one that does. -/
theorem Listens.reading (h : ch.Listens) (hg : ch.Gathers) (hc : ch.Accepts) {got : Bytes}
    (hv : ch.verifier = .reading got) (hs : ch.slot = some l) :
    ch.consumer.phase = .absent ∧ l < ch.links.length ∧
      Token ch.session ch.log ch.authentication (ch.link l).inbound (.reading got) := by
  have hn := hg.authentication_none (by rw [hv]; rfl)
  have ht := (h.hears l hs).token
  rw [hv] at ht
  exact ⟨(hg.phases (by rw [hn]; nofun)).1, hc.slot_lt hs, ht⟩

/-! ## The event consumer starts -/

/-- The event consumer starts behind the token. -/
theorem Hears.start (h : ch.Hears s) (hs : s.IsSound) (hp : ch.consumer.phase = .absent)
    (hr : ch.verifier.isRecorded = true) (ha : ch.authentication = some .verified) :
    FrameReader.Follows ch.codec ch.session.length {} s [] := by
  have hv := (h.token.verdict hr ha).verified
  have he := (events_absent hp).1 h.events
  exact .start _ (Nat.le_antisymm he hv.1) hs

/-- A step of binding the streams reads nothing, whoever takes it. -/
theorem WiringMove.hears {w w' : Wiring} (m : WiringMove ch w ch' w') (h : ch.Listens)
    (hg : ch.Gathers) (hw : w ∈ ch.wirings) (hs : ch.slot = some l) {v : Verifier}
    (hv : v.isRecorded = true) (cs : List Call) :
    Hears { ch' with verifier := v, calls := cs }
      (link { ch' with verifier := v, calls := cs } l).inbound := by
  obtain ⟨-, hopen, -, hat⟩ := hg.wired.of_mem hw
  have hr := hg.isRecorded hopen
  have hh := h.hears l hs
  have hl : link { ch' with verifier := v, calls := cs } l = ch.link l := by
    simp only [link, m.accepting.2.2.2.2.2.2.1]
  rw [hl]
  by_cases hsp : ∃ permit, w = .spawnConsumer permit
  · obtain ⟨permit, rfl⟩ := hsp
    have hp : ch.consumer.phase = .absent := by
      simpa [Channel.streams, Wiring.streams, Task.isStarted] using congrArg (·.1) hat.streams
    obtain ⟨hreader, hhandled⟩ := h.idle hp
    have hf := hh.start (h.sound l) hp hr (hat.admitted rfl).verified
    rw [← hreader, ← hhandled] at hf
    cases m with
    | spawnConsumer => exact ⟨hh.token.of_recorded hr hv, hf⟩
  · have p := m.pauses fun permit he => hsp ⟨permit, he⟩
    obtain ⟨ht, he⟩ := p.hears (.refl _) hh
    exact ⟨ht.of_recorded (p.verifier ▸ hr) hv, he⟩

theorem hears_of_links (hl : l < ch.links.length)
    (hx : ch'.links = (ch.onLink l fun y => { y with inbound := s }).links)
    (ht : Token ch'.session ch'.log ch'.authentication s ch'.verifier) (he : ch'.Events s) :
    ch'.Hears (ch'.link l).inbound := by
  have hlink : ch'.link l = (ch.onLink l fun y => { y with inbound := s }).link l := by
    rw [link, hx, ← link]
  rw [hlink, link_onLink_self hl]
  exact ⟨ht, he⟩

theorem VerifierMove.hears (m : VerifierMove ch ch') (h : ch.Listens) (hg : ch.Gathers)
    (hc : ch.Accepts) (hs : ch.slot = some l) : ch'.Hears (ch'.link l).inbound := by
  obtain ⟨ht, he⟩ := h.hears l hs
  cases m with
  | begin hv =>
    rw [hv] at ht
    exact ⟨⟨ht, ch.session.length_pos⟩, he⟩
  | blind hv =>
    rw [hv] at ht
    have hn : (ch.link l).inbound.taken.length < ch.session.length := by
      rw [show (ch.link l).inbound.taken = [] from ht]
      exact ch.session.length_pos
    exact ⟨.early hn (.inr (by simp [error])), he⟩
  | @read got k b x hv hs' hr hn =>
    obtain rfl : l = k := Option.some.inj (hs.symm.trans hs')
    obtain ⟨hp, hl, ht⟩ := h.reading hg hc hv hs
    obtain ⟨hgot, hle⟩ := ht.read hr
    exact hears_of_links hl rfl ⟨hgot, hn⟩ ((events_absent hp).2 (hgot ▸ hle))
  | @complete got k b x hv hs' hr hn =>
    obtain rfl : l = k := Option.some.inj (hs.symm.trans hs')
    obtain ⟨hp, hl, ht⟩ := h.reading hg hc hv hs
    obtain ⟨hgot, hle⟩ := ht.read hr
    exact hears_of_links hl rfl (ht.complete hr hn) ((events_absent hp).2 (hgot ▸ hle))
  | @ended got k x hv hs' hr =>
    obtain rfl : l = k := Option.some.inj (hs.symm.trans hs')
    obtain ⟨hp, hl, ht⟩ := h.reading hg hc hv hs
    have hd := ht.ended hr
    exact hears_of_links hl rfl hd ((events_absent hp).2 (Nat.le_of_lt hd.early_lt))
  | @broke got k e x hv hs' hr =>
    obtain rfl : l = k := Option.some.inj (hs.symm.trans hs')
    obtain ⟨hp, hl, ht⟩ := h.reading hg hc hv hs
    have hd := ht.broke (h.sound l) hr
    exact hears_of_links hl rfl (hd.grows (.refl _) fun _ => List.mem_append_left _)
      ((events_absent hp).2 (Nat.le_of_lt hd.early_lt))
  | judge hv =>
    rw [hv] at ht
    exact ⟨ht, he⟩
  | publish hv =>
    rw [hv] at ht
    refine ⟨Verdict.grows ht (.refl _) fun r hr => ?_, he⟩
    dsimp only
    split
    · exact hr
    · exact List.mem_append_left _ hr
  | record hv =>
    have hn := hg.shows
    rw [hv] at ht hn
    refine ⟨fun o ho => ?_, he⟩
    rw [hn.none_of_recording, Option.none_or, Option.some.injEq] at ho
    exact ho ▸ ht
  | opens hv | arrives hv =>
    exact ⟨ht.of_recorded (by rw [hv]; rfl) rfl, he⟩
  | surplus hv =>
    refine ⟨?_, he⟩
    exact (ht.grows (.refl _) fun _ => List.mem_append_left _).of_recorded (by rw [hv]; rfl) rfl
  | @wire w w' ch' hv m hw =>
    exact m.hears h hg (mem_wirings_of_verifier hv) hs (v := .wiring w') rfl ch'.calls
  | @wired w ch' hv m =>
    exact m.hears h hg (mem_wirings_of_verifier hv) hs (v := .finished) rfl ch'.calls

/-! ## The event consumer reads -/

theorem FrameReader.Reads.taken {c : Codec} {r r' : FrameReader} {p : FrameReader.Progress}
    (h : FrameReader.Reads c r s p r' s') : ∃ b, s'.taken = s.taken ++ b := by
  cases h with
  | arrived => exact ⟨_, rfl⟩
  | _ => exact ⟨[], by simp⟩

/-- While the event consumer runs, verification has read the token and no more. -/
theorem Listens.consuming (h : ch.Listens) (hg : ch.Gathers)
    (hp : ch.consumer.phase = .running) (hs : ch.slot = some l) :
    ch.verifier.isRecorded = true ∧
      Verdict ch.session ch.log (ch.link l).inbound .verified ∧
      FrameReader.Follows ch.codec ch.session.length ch.reader (ch.link l).inbound ch.handled := by
  obtain ⟨ht, he⟩ := h.hears l hs
  have hadm : ch.Admitted := hg.admitted fun hn => by
    have hst := congrArg (·.1) hn
    simp [Channel.streams, Task.isStarted, hp] at hst
  have hr : ch.verifier.isRecorded = true := by
    have hsh := hg.shows
    rw [hadm.verified] at hsh
    exact hsh.isRecorded
  unfold Events at he
  rw [hp] at he
  exact ⟨hr, ht.verdict hr hadm.verified, he⟩

theorem ConsumerMove.hears (m : ConsumerMove ch ch') (h : ch.Listens) (hg : ch.Gathers)
    (hc : ch.Accepts) (ho : ch.closed = false → ch.Open) (hs : ch.slot = some l) :
    ch'.Hears (ch'.link l).inbound := by
  obtain ⟨ht, -⟩ := h.hears l hs
  have running (hp : ch.consumer.phase = .running) := h.consuming hg hp hs
  -- the stream after a step of the reader, with what the token says about it
  have reads {k : LinkId} {p : FrameReader.Progress} {r : FrameReader} {x : Stream}
      (hp : ch.consumer.phase = .running) (hk : ch.slot = some k)
      (hstep : ch.reader.step ch.codec (ch.link k).inbound = (p, r, x)) :
      l = k ∧ FrameReader.Reads ch.codec ch.reader (ch.link l).inbound p r x ∧
        Token ch.session ch.log ch.authentication x ch.verifier := by
    obtain rfl : l = k := Option.some.inj (hs.symm.trans hk)
    obtain ⟨hr, hv, hf⟩ := running hp
    have hreads := FrameReader.step_reads (c := ch.codec) (s := (ch.link l).inbound) hf.sound
    rw [hstep] at hreads
    obtain ⟨b, hb⟩ := FrameReader.Reads.taken hreads
    exact ⟨rfl, hreads, ht.append hr hv.verified.1 hb⟩
  cases m with
  | halt hp hh =>
    obtain ⟨hr, hv, hf⟩ := running hp
    refine ⟨ht, .inr ⟨?_, hf.began, hf.consumed.isPrefix_items⟩⟩
    rcases Bool.or_eq_true_iff.1 hh with ha | hd
    · left
      cases hx : ch.closed with
      | true => rfl
      | false =>
        rw [(ho hx).consumer] at ha
        cases ha
    · exact .inr hd
  | @arrived k r x hp _ _ hk hstep =>
    obtain ⟨rfl, hreads, htok⟩ := reads hp hk hstep
    obtain ⟨-, -, hf⟩ := running hp
    refine hears_of_links (hc.slot_lt hs) rfl htok ?_
    have hev := (hf.arrived hreads).2
    simp only [Events, hp]
    exact hev
  | @item k v r x hp _ _ hk hstep =>
    obtain ⟨rfl, hreads, htok⟩ := reads hp hk hstep
    obtain ⟨-, -, hf⟩ := running hp
    refine hears_of_links (hc.slot_lt hs) rfl htok ?_
    have hev := (hf.item hreads).2
    simp only [Events, hp]
    exact hev
  | @failed k e r x hp _ _ hk hstep =>
    obtain ⟨rfl, hreads, htok⟩ := reads hp hk hstep
    obtain ⟨-, -, hf⟩ := running hp
    exact hears_of_links (hc.slot_lt hs) rfl
      (htok.grows (.refl _) fun _ => List.mem_append_left _) (.inl (hf.failed hreads).2)
  | @ended k r x hp _ _ hk hstep =>
    obtain ⟨rfl, hreads, htok⟩ := reads hp hk hstep
    obtain ⟨-, -, hf⟩ := running hp
    exact hears_of_links (hc.slot_lt hs) rfl htok (.inl (hf.ended hreads).2)

/-! ## Every move -/

theorem hears_fresh (h : ch.Listens) (hg : ch.Gathers) (hs : ch.slot = none)
    (hv : ch.verifier = .absent) (l : LinkId) : ch.Hears (ch.link l).inbound := by
  have ht : (ch.link l).inbound.taken = [] := h.silent l (by rw [hs]; nofun)
  have hp : ch.consumer.phase = .absent := by
    refine (hg.phases ?_).1
    rw [hg.authentication_none (by rw [hv]; rfl)]
    nofun
  refine ⟨?_, (events_absent hp).2 ?_⟩
  · rw [hv]
    exact ht
  · rw [ht]
    exact Nat.zero_le _

theorem AcceptorMove.hears (m : AcceptorMove ch ch') (h : ch.Listens) (hg : ch.Gathers)
    (hc : ch.Accepts) (hs : ch'.slot = some l) : ch'.Hears (ch'.link l).inbound := by
  have g := (Move.acceptor m).inbound_grows hc nofun nofun l
  have e := m.extends
  cases m with
  | @claim k ha hn =>
    have hcl := hc.claim
    rw [hn] at hcl
    obtain ⟨ht, he⟩ := hears_fresh h hg hn hcl.of_none l
    exact ⟨ht, he⟩
  | verify ha | verifyBlind ha =>
    have hcl := hc.claim
    rw [ha] at hcl
    obtain ⟨ht, he⟩ := h.hears l hs
    rw [hcl.verify.2.2] at ht
    exact ⟨ht, he⟩
  | _ =>
    exact @Pauses.hears ch _ _ _ ⟨rfl, rfl, rfl, rfl, rfl, rfl, rfl, e.log, e.closed, id⟩ g
      (h.hears l hs)

theorem Move.hears (m : Move ch a ch') (h : ch.Listens) (hg : ch.Gathers) (hc : ch.Accepts)
    (ho : ch.closed = false → ch.Open) (hs : ch'.slot = some l) :
    ch'.Hears (ch'.link l).inbound := by
  have rest (p : Pauses ch ch') (hv : a ≠ .task .verifier) (hco : a ≠ .task .consumer)
      (hs' : ch.slot = some l) : ch'.Hears (ch'.link l).inbound :=
    p.hears (m.inbound_grows hc hv hco l) (h.hears l hs')
  cases m with
  | acceptor m => exact m.hears h hg hc hs
  | verifier m => exact m.hears h hg hc (m.accepting.2.1 ▸ hs)
  | consumer m =>
    refine m.hears h hg hc ho ?_
    cases m <;> exact hs
  | producer m =>
    have e := m.extends
    cases m <;> exact rest ⟨rfl, rfl, rfl, rfl, rfl, rfl, rfl, e.log, e.closed, id⟩ nofun nofun hs
  | relay m =>
    have e := m.extends
    cases m <;> exact rest ⟨rfl, rfl, rfl, rfl, rfl, rfl, rfl, e.log, e.closed, id⟩ nofun nofun hs
  | @call i c c' ch' hi m =>
    have hs' : ch.slot = some l := m.slot_eq ▸ hs
    cases hw : c.wiring? with
    | none => exact rest (m.pauses hw) nofun nofun hs'
    | some w =>
      obtain rfl := Call.eq_wire hw
      have hmem := mem_wirings_of_call hi
      have hv : ch'.verifier.isRecorded = true := by
        rw [m.outcome_eq.1]
        exact hg.isRecorded (hg.wired.of_mem hmem).2.1
      cases m with
      | wire m | wired m => exact m.hears h hg hmem hs' hv _
  | client ha =>
    have hv : ∀ t, a ≠ .task t := fun t he => by
      rw [he] at ha
      cases ha
    exact rest ⟨rfl, rfl, rfl, rfl, rfl, rfl, rfl, fun _ => id, id, id⟩ (hv _) (hv _) hs
  | _ => exact rest ⟨rfl, rfl, rfl, rfl, rfl, rfl, rfl, fun _ => id, id, id⟩ nofun nofun hs

theorem Move.sound (m : Move ch a ch') (h : ch.Listens) (hc : ch.Accepts) (k : LinkId) :
    (ch'.link k).inbound.IsSound := by
  have hk := h.sound k
  cases m.link hc k with
  | same he => rwa [he]
  | client ha he =>
    rw [he]
    exact hk.grows (Action.byClient ha _).inbound
  | turnedAway _ he | reclaimed _ _ he | shutDown _ _ _ he =>
    rw [he]
    exact hk.grows (Stream.grows_abandon _)
  | read _ _ hr he =>
    rw [he]
    rcases hr with rfl | ⟨limit, rfl⟩
    · exact hk
    · exact hk.receive limit
  | written _ _ _ he =>
    rw [he]
    exact hk

theorem WiringMove.idle {w w' : Wiring} (m : WiringMove ch w ch' w')
    (h : ch.consumer.phase = .absent → ch.reader = {} ∧ ch.handled = [])
    (hp : ch'.consumer.phase = .absent) : ch'.reader = {} ∧ ch'.handled = [] := by
  cases m with
  | spawnConsumer => cases hp
  | _ => exact h hp

theorem Move.idle (m : Move ch a ch')
    (h : ch.consumer.phase = .absent → ch.reader = {} ∧ ch.handled = [])
    (hp : ch'.consumer.phase = .absent) : ch'.reader = {} ∧ ch'.handled = [] := by
  cases m with
  | acceptor m => cases m <;> exact h hp
  | verifier m =>
    cases m with
    | wire _ m | wired _ m => exact m.idle h hp
    | _ => exact h hp
  | consumer m =>
    cases m with
    | halt | failed | ended => cases hp
    | arrived hr | item hr =>
      rw [show ch.consumer.phase = .absent from hp] at hr
      cases hr
  | producer m => cases m <;> exact h hp
  | relay m => cases m <;> exact h hp
  | call _ m =>
    cases m with
    | wire m | wired m => exact m.idle h hp
    | _ => exact h hp
  | _ => exact h hp

theorem Listens.keeps (h : ch.Listens) (hc : ch.Accepts) (hg : ch.Gathers)
    (ho : ch.closed = false → ch.Open) (m : Move ch a ch') : ch'.Listens where
  sound := m.sound h hc
  idle := m.idle h.idle
  silent k hk := by
    have hs : ch.slot ≠ some k := fun hs => hk (m.slot_eq hs)
    rw [(m.silent hc hs).1.taken, h.silent k hs]
  hears _ hs := m.hears h hg hc ho hs

end WorkerLink.Channel
