import WorkerLink.Proofs.Channel.Outcome
import WorkerLink.Proofs.Descriptor.RoundTrip
import WorkerLink.Proofs.Frame.Values
import WorkerLink.Proofs.Worker.Conversation

/-!
# Events and commands reach the other side

A worker that reads the descriptor of a channel and connects with it is verified; the events that it
sends reach the handler and the commands reach it, all of them and in order, however the bytes of
either direction are split on their way.
-/

namespace WorkerLink.Channel

open Conversation (payloads arrived payloads_replicate_ask)

variable {ch : Channel} {as : List Action} {s : Scenario} {vs events commands : List Json}
  {x : Conversation}

/-! ## Connecting -/

theorem create_loopback {faults : Faults} {config : Config} (fresh : SessionId) (port : UInt16)
    (shape : Json.Shape) (hip : config.bindAddress.isLoopback = true)
    (hf : faults.freeDescriptors ≠ some 0) :
    ∃ start, create ⟨true⟩ faults config fresh port shape = .ok start ∧
      start.descriptor = ⟨.ofIp config.bindAddress port, config.session.getD fresh⟩ ∧
      start.codec = ⟨shape, config.frameLimit⟩ := by
  refine ⟨{ forkId := config.forkId, descriptor := _, codec := _ }, ?_, rfl, rfl⟩
  simp [create, hf, Machine.listenFault?, hip]

/-- A worker learns the descriptor that its channel was given. -/
theorem descriptorOfText_text (d : Descriptor) : Worker.descriptorOfText d.text = .ok d := by
  rw [Worker.descriptorOfText, d.parse_text, Except.mapError]

/-! ## What the channel does -/

theorem ofStream_token (id : SessionId) (b : Bytes) (ended : Bool) :
    Authentication.ofStream id (id.bytes ++ b) ended = some .verified := by
  have hle : id.length ≤ (id.bytes ++ b).length := by
    rw [List.length_append]
    exact Nat.le_add_right ..
  have htake : (id.bytes ++ b).take id.length = id.bytes := List.take_left' rfl
  rw [Authentication.ofStream, if_pos hle, htake, Authentication.ofToken_eq_verified.2 rfl]

/-- What a session comes to whose worker sends the token and then good frames. -/
theorem observed_of_frames {id : SessionId} {c : Codec} (hs : c.shape = .any)
    (hf : ∀ v ∈ vs, c.Fits v) (hstream : s.stream = id.bytes ++ Codec.frames vs)
    (hend : s.ended = false) :
    s.observed id c = ⟨.ready, some .verified, 0, 1 + s.output.toNat, vs, c.encodeAll s.commands⟩ ∧
      s.isOver id c = false := by
  obtain ⟨hi, hr⟩ := Codec.items_frames hf hs
  have hdrop : (id.bytes ++ Codec.frames vs).drop id.length = Codec.frames vs := List.drop_left' rfl
  have hover : s.isOver id c = false := by
    rw [Scenario.isOver, hend, hstream, hdrop, hr]
    rfl
  refine ⟨?_, hover⟩
  rw [Scenario.observed, hover, hend, hstream, ofStream_token, hdrop, hi]
  rfl

/-- A worker that has sent the token is verified once all is settled, whatever it has sent behind it
and whichever calls the owner has made. -/
theorem Playing.verified_of_token (h : Playing s ch as) (hr : ch.Rests)
    (hne : ch.acceptor ≠ .absent)
    (ht : ch.session.bytes <+: bytesSent (as.filter Action.ofClient)) :
    ch.authentication = some .verified := by
  obtain ⟨rest, hrest⟩ := ht
  have hsome : as.filter Action.ofClient ≠ [] := by
    intro hnil
    rw [hnil] at hrest
    have hpos := ch.session.length_pos
    rw [SessionId.length, (List.append_eq_nil_iff.1 hrest).1] at hpos
    cases hpos
  have hal := (h.attends.resolve_left fun hn => hsome hn.1).2
  rw [h.authentication_eq hr hne hal, ← hrest, ofStream_token]

/-- Once the handler has been given all events, the channel keeps no byte of them. -/
theorem Playing.drained (h : Playing s ch as) (hp : s.Plays as) (hd : ch.Done)
    (hs : ch.codec.shape = .any) (hf : ∀ v ∈ vs, ch.codec.Fits v)
    (hstream : s.stream = ch.session.bytes ++ Codec.frames vs) (hend : s.ended = false) :
    ch.reader.decoder = {} ∧ (ch.link 0).inbound.unread = [] := by
  obtain ⟨hobs, hover⟩ := observed_of_frames hs hf hstream hend
  have heq := h.observed_eq hp hd
  rw [hobs] at heq
  have hauth : ch.authentication = some .verified := congrArg Observed.authentication heq
  have hhandled : ch.handled = vs := congrArg Observed.handled heq
  have hal := h.alone_of_plays hp
  obtain ⟨hslot, -⟩ := h.slot_of_rests hd.toRests (h.accepting_of_done hp.begins hd) hal
  obtain ⟨started, -⟩ := started_of_streams (h.streams_of_verified hp hd hauth)
  have hrunning := (h.running_iff hp hd hslot started).2 hover
  have hevents := (h.inv.listens.hears 0 hslot).events
  unfold Events at hevents
  rw [hrunning, hhandled] at hevents
  obtain ⟨hi, hr⟩ := Codec.items_frames hf hs
  have hwritten : (ch.link 0).inbound.written.drop ch.session.length = Codec.frames vs := by
    rw [hal.sends.written, hstream]
    exact List.drop_left' rfl
  exact hevents.drained (by rw [hwritten, hi]) (by rw [hwritten, hr])

/-! ## What the worker does -/

/-- A worker that sends values sends the token and their frames. -/
theorem speaks_values (d : Descriptor) {limit : Nat}
    (hf : ∀ v ∈ events, Codec.Fits { limit } v) {ts : List Turn}
    (hts : payloads ts = events.map .value) :
    Conversation.Speaks { limit } (d.session.bytes ++ Codec.frames events)
      ((Conversation.start d limit).run ts) := by
  have hencode : ∀ p ∈ payloads ts, ∃ frame, Codec.encode { limit } p = .ok frame := by
    intro p hp
    rw [hts, List.mem_map] at hp
    obtain ⟨v, hv, rfl⟩ := hp
    exact ⟨_, (hf v hv).encode⟩
  have hspeaks := (Conversation.Speaks.start d limit).run hencode
  rw [hts, Codec.encodeAll_values hf] at hspeaks
  exact hspeaks

/-- A worker at which the frames of values have arrived finds these values by asking for them. -/
theorem hears_values (d : Descriptor) {limit : Nat}
    (hf : ∀ v ∈ commands, Codec.Fits { limit } v) {ts : List Turn}
    (hts : arrived ts = Codec.frames commands) {k : Nat} (hk : commands.length ≤ k) :
    Conversation.Hears { limit } (Codec.frames commands) commands
      (((Conversation.start d limit).run ts).run (List.replicate k .ask)) := by
  obtain ⟨hi, hr⟩ := Codec.items_frames hf rfl
  have hgood : ((Decoder.ofBytes ([] ++ arrived ts)).remainder { limit }).1 = none := by
    rw [List.nil_append, hts, hr]
  obtain ⟨ws, hw⟩ := (Conversation.Hears.start d limit).run hgood
  rw [List.nil_append, hts] at hw
  exact hw.asks hi (by rw [hr]) (Nat.le_trans hk (Nat.le_add_left ..))

/-! ## Both sides together -/

/-- The worker is verified, the handler has been given the events and the worker has found the
commands, and no byte is kept on either side. -/
structure Delivered (ch : Channel) (x : Conversation) (events commands : List Json) : Prop where
  authentication : ch.authentication = some .verified
  emitted : ∀ r ∈ x.emitted, r = .ok ()
  handled : ch.handled = events
  eventsDrained : ch.reader.decoder = {} ∧ (ch.link 0).inbound.unread = []
  answers : x.answers = commands.map .item
  commandsDrained : x.worker.reader.decoder = {} ∧ x.link.outbound.unread = []

/-- If the bytes of a worker that sends events are those of the scenario, and those that the channel
has written have arrived at it, then all is delivered once the worker has asked often enough. -/
theorem Playing.delivered (h : Playing s ch as) (hp : s.Plays as) (hd : ch.Done)
    (hshape : ch.codec.shape = .any) {limit : Nat}
    (hevents : ∀ v ∈ events, ch.codec.Fits v ∧ Codec.Fits { limit } v)
    (hcommands : ∀ v ∈ commands, ch.codec.Fits v ∧ Codec.Fits { limit } v) {d : Descriptor}
    (hsession : d.session = ch.session) {ts : List Turn} (hts : payloads ts = events.map .value)
    (hstream : s.stream = ((Conversation.start d limit).run ts).link.inbound.written)
    (hend : s.ended = false) (hsent : s.commands = commands.map .value)
    (harr : arrived ts = (ch.link 0).outbound.written) {k : Nat} (hk : commands.length ≤ k) :
    Delivered ch (((Conversation.start d limit).run ts).run (List.replicate k .ask)) events
      commands := by
  have hspeaks := speaks_values d (fun v hv => (hevents v hv).2) hts
  rw [hspeaks.sent, hsession] at hstream
  have hfits : ∀ v ∈ events, ch.codec.Fits v := fun v hv => (hevents v hv).1
  have hobs := h.observed_eq hp hd
  rw [(observed_of_frames hshape hfits hstream hend).1, hsent,
    Codec.encodeAll_values fun v hv => (hcommands v hv).1] at hobs
  have hwritten : (ch.link 0).outbound.written = Codec.frames commands :=
    congrArg Observed.written hobs
  have hhears := hears_values d (fun v hv => (hcommands v hv).2) (harr.trans hwritten) hk
  obtain ⟨hi, hr⟩ := Codec.items_frames (fun v hv => (hcommands v hv).2) rfl
  have hasked := @Conversation.Speaks.run _ _ _ hspeaks (List.replicate k .ask) fun p hp => by
    rw [payloads_replicate_ask] at hp
    cases hp
  exact
    { authentication := congrArg Observed.authentication hobs
      emitted := hasked.emitted
      handled := congrArg Observed.handled hobs
      eventsDrained := h.drained hp hd hshape hfits hstream hend
      answers := hhears.answers
      commandsDrained := hhears.drained hi hr }

/-- A channel that listens on a loopback address can be reached with the descriptor that it gives to
its worker. A worker that connects with it is verified as soon as all of the token was sent. If the
owner has registered both streams and all is settled, then the handler has been given the events
that the worker has sent, and by asking often enough the worker finds the commands, however the
bytes of either direction were split and whatever the order was in which all this happened. -/
theorem delivered_of_plays {faults : Faults} {config : Config} (fresh : SessionId) (port : UInt16)
    {limit : Nat} (hip : config.bindAddress.isLoopback = true)
    (hfree : faults.freeDescriptors ≠ some 0)
    (hfits : ∀ v ∈ events ++ commands,
      Codec.Fits { limit := config.frameLimit } v ∧ Codec.Fits { limit } v) :
    ∃ start d, create ⟨true⟩ faults config fresh port .any = .ok start ∧
      Worker.descriptorOfText start.workerEnvironment.2 = .ok d ∧
      d.addr = .ofIp config.bindAddress port ∧ Machine.connectFault? ⟨true⟩ d.addr = none ∧
      ∀ ts, payloads ts = events.map .value →
        let x := (Conversation.start d limit).run ts
        (∀ (s : Scenario) (as : List Action), s.Begins as →
          bytesSent (as.filter Action.ofClient) <+: x.link.inbound.written →
          (Worker.greeting d).length ≤ (bytesSent (as.filter Action.ofClient)).length →
          let ch := (start.step .makeQueue).run as
          ch.Rests → ch.acceptor ≠ .absent → ch.authentication = some .verified) ∧
        ∀ (output : Bool) (as : List Action),
          Scenario.Plays ⟨x.link.inbound.written, false, commands.map .value, output⟩ as →
          let ch := (start.step .makeQueue).run as
          ch.Done → arrived ts = (ch.link 0).outbound.written → ∀ k, commands.length ≤ k →
          Delivered ch (x.run (List.replicate k .ask)) events commands := by
  obtain ⟨start, hstart, hdesc, hcodec⟩ := create_loopback fresh port .any hip hfree
  obtain ⟨hevents, hcommands⟩ := List.forall_mem_append.1 hfits
  refine ⟨start, start.descriptor, hstart, ?_, by rw [hdesc], rfl, fun ts hts => ⟨?_, ?_⟩⟩
  · rw [workerEnvironment, hdesc]
    exact descriptorOfText_text _
  · intro s as hb hsub hlen ch hr hne
    refine (playing_of_begins hstart hb).verified_of_token hr hne ?_
    have hspeaks := speaks_values start.descriptor (fun v hv => (hevents v hv).2) hts
    rw [hspeaks.sent] at hsub
    rw [(start.fixed_of_makeQueue as).2]
    exact List.prefix_of_prefix_length_le (List.prefix_append ..) hsub hlen
  · intro output as hp ch hd harr k hk
    have h := playing_of_begins hstart hp.begins
    obtain ⟨hc, hs⟩ := start.fixed_of_makeQueue as
    rw [hcodec] at hc
    refine h.delivered hp hd ?_ ?_ ?_ hs.symm hts rfl rfl rfl harr hk
    · rw [hc]
    · rwa [hc]
    · rwa [hc]

/-- The worker of `exampleScenario`, to which the frame of the command comes in two pieces. -/
def exampleTurns : List Turn :=
  [.ask, .emit (.value .null), .arrive [0, 0, 0, 4, 116], .ask, .arrive [114, 117, 101]]

theorem delivered_of_example :
    exampleScenario.Plays exampleEarly ∧
      Delivered ((exampleStart.step .makeQueue).run exampleEarly)
        (((Conversation.start exampleStart.descriptor 100).run exampleTurns).run [.ask])
        [.null] [.bool true] := by
  have fits : ∀ v ∈ [Json.null] ++ [.bool true],
      Codec.Fits { limit := 100 } v ∧ Codec.Fits { limit := 100 } v := by
    simp only [List.cons_append, List.nil_append, List.forall_mem_cons]
    exact ⟨⟨⟨rfl, by decide, by decide⟩, ⟨rfl, by decide, by decide⟩⟩,
      ⟨⟨rfl, by decide, by decide⟩, ⟨rfl, by decide, by decide⟩⟩, nofun⟩
  obtain ⟨start, d, hstart, hd, -, -, h⟩ :=
    @delivered_of_plays [.null] [.bool true] {} { frameLimit := 100 } exampleToken 4000 100 rfl
      nofun fits
  obtain rfl : exampleStart = start := Except.ok.inj (create_exampleStart.symm.trans hstart)
  obtain rfl : exampleStart.descriptor = d :=
    Except.ok.inj ((descriptorOfText_text exampleStart.descriptor).symm.trans hd)
  exact ⟨plays_exampleEarly, (h exampleTurns rfl).2 false exampleEarly plays_exampleEarly
    (by decide +kernel) (by decide +kernel) 1 (Nat.le_refl 1)⟩

end WorkerLink.Channel
