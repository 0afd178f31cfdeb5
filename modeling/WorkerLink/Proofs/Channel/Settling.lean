import WorkerLink.Proofs.Channel.Admission
import WorkerLink.Proofs.Channel.Sending

/-!
# Settled streams

Once nothing is left to do for a channel whose streams were started, the handler has been given
what the bytes behind the token hold, and the worker was written what the commands come to.
-/

namespace WorkerLink.Channel

variable {ch : Channel} {l : LinkId} {q : QueueId} {sent : List Payload}

theorem taskStep_of_isSettled (h : ch.isSettled = true) (a : Actor) : ch.taskStep a = none := by
  rw [isSettled, Option.isNone_iff_eq_none, nextStep?, List.findSome?_eq_none_iff] at h
  exact h a (by cases a <;> simp [Actor.all])

/-- Accepting that has nothing to do has not begun, has stopped, or waits for a connection. -/
theorem acceptor_of_isSettled (h : ch.isSettled = true) :
    ch.acceptor = .absent ∨ ch.acceptor = .stopped ∨
      ch.acceptor = .waiting ∧ ch.acceptorAborted = false ∧ ch.backlog = [] := by
  have hstep : ch.acceptorStep = none := taskStep_of_isSettled h .acceptor
  unfold acceptorStep at hstep
  cases ha : ch.acceptor with
  | absent => exact .inl rfl
  | stopped => exact .inr (.inl rfl)
  | waiting =>
    simp only [ha] at hstep
    split at hstep
    · cases hstep
    · rename_i hab
      split at hstep
      · rename_i hb
        exact .inr (.inr ⟨rfl, by simpa using hab, by simpa using hb⟩)
      · cases hstep
  | polling | taken | claimed =>
    simp only [ha] at hstep
    split at hstep <;> cases hstep
  | announcing | verifying | failing | reporting =>
    simp only [ha] at hstep
    cases hstep

/-- Verification that has nothing to do has not begun, waits for the token, or is finished. -/
theorem Gathers.verifier_of_isSettled (h : ch.Gathers) (hset : ch.isSettled = true) :
    ch.verifier = .absent ∨ (∃ got, ch.verifier = .reading got) ∨ ch.verifier = .finished := by
  have hstep : ch.verifierStep = none := taskStep_of_isSettled hset .verifier
  have hshows := h.shows
  unfold verifierStep at hstep
  generalize ch.verifier = v at hstep hshows ⊢
  generalize ch.verified = shown at hshows
  generalize ch.authentication = recorded at hshows
  cases v with
  | absent => exact .inl rfl
  | reading got => exact .inr (.inl ⟨got, rfl⟩)
  | finished => exact .inr (.inr rfl)
  | dropped => cases hshows <;> contradiction
  | spawned handle => cases handle <;> cases hstep
  | _ => cases hstep

/-- An event consumer that has nothing to do waits for its stream. -/
theorem pending_of_consumerStep (h : ch.consumerStep = none)
    (hr : ch.consumer.phase = .running) (ha : ch.consumer.aborted = false)
    (hd : ch.disabled = false) (hs : ch.slot = some l) :
    ∃ r s, ch.reader.step ch.codec (ch.link l).inbound = (.pending, r, s) := by
  match hstep : ch.reader.step ch.codec (ch.link l).inbound with
  | (.pending, r, s) => exact ⟨r, s, rfl⟩
  | (.arrived, r, s) | (.item v, r, s) | (.failed e, r, s) | (.ended, r, s) =>
    simp [consumerStep, Task.isRunning, hr, ha, hd, hs, hstep] at h

/-- A command producer that has nothing to do waits for its queue. -/
theorem items_of_producerStep (h : ch.producerStep = none)
    (hr : ch.producer.phase = .running) (ha : ch.producer.aborted = false)
    (hd : ch.disabled = false) (hs : ch.slot = some l) (hc : ch.commands = some q) :
    (ch.queue q).items = [] := by
  cases hi : (ch.queue q).items with
  | nil => rfl
  | cons p rest =>
    have hn : (ch.queue q).next = (.item p, { ch.queue q with items := rest }) := by
      rw [CommandQueue.next, hi]
    simp only [queue, List.getD_eq_getElem?_getD] at hn
    cases he : ch.codec.encode p with
    | error e => simp [producerStep, Task.isRunning, hr, ha, hd, hs, hc, hn, he] at h
    | ok b =>
      cases hw : (ch.link l).outbound.write b <;>
        simp [producerStep, Task.isRunning, hr, ha, hd, hs, hc, hn, he, hw] at h

/-- Whatever was given to the handler stands in the frames behind the token. -/
theorem Inv.handled_isPrefix (h : ch.Inv) (hs : ch.slot = some l) :
    ch.handled <+:
      (Decoder.ofBytes ((ch.link l).inbound.written.drop ch.session.length)).items ch.codec := by
  have hp := h.isPrefix_handled hs
  rcases Nat.le_total ch.session.length (ch.link l).inbound.taken.length with hn | hn
  · rw [Stream.written, List.drop_append_of_le_length hn]
    exact hp.trans (Decoder.isPrefix_items_feed ..)
  · rw [List.drop_of_length_le hn, Decoder.items_of_none rfl, List.prefix_nil] at hp
    rw [hp]
    exact List.nil_prefix

/-- Once all is settled the handler has been given all that the bytes behind the token hold. -/
theorem Inv.handled_eq (h : ch.Inv) (hset : ch.isSettled = true) (hc : ch.closed = false)
    (hd : ch.disabled = false) (hp : ch.consumer.phase ≠ .absent) (hs : ch.slot = some l) :
    (Decoder.ofBytes ((ch.link l).inbound.written.drop ch.session.length)).items ch.codec =
      ch.handled := by
  have he := (h.listens.hears l hs).events
  unfold Events at he
  cases hph : ch.consumer.phase with
  | absent => exact (hp hph).elim
  | running =>
    rw [hph] at he
    obtain ⟨r, s, hstep⟩ := pending_of_consumerStep (taskStep_of_isSettled hset .consumer) hph
      (h.open_of hc).consumer hd hs
    have hreads := FrameReader.step_reads (c := ch.codec) (s := (ch.link l).inbound) he.sound
    rw [hstep] at hreads
    obtain ⟨hu, -, hv, -⟩ := he.pending hreads
    rw [Stream.written, hu, List.append_nil, hv]
  | stopped =>
    rw [hph] at he
    rcases he with he | ⟨hcd, -⟩
    · exact he.items_eq
    · rw [hc, hd] at hcd
      simp at hcd

theorem mem_arrivals_of_slot (hs : ch.slot = some l) : l ∈ ch.arrivals := by
  simp [arrivals, hs]

/-- Once all is settled the worker was written the frames of all that was sent. -/
theorem Supplies.written_eq {sent : QueueId → List Payload} (h : ch.Supplies sent) (hi : ch.Inv)
    (hset : ch.isSettled = true) (hc : ch.closed = false) (hd : ch.disabled = false)
    (hp : ch.producer.phase ≠ .absent) (hs : ch.slot = some l) (hq : ch.commands = some q)
    (ha : (ch.link l).outbound.abandoned = false) :
    (ch.link l).outbound.written = ch.codec.encodeAll (sent q) := by
  have hpr := h.produces l q hs hq
  have ho := hi.open_of hc
  cases hph : ch.producer.phase with
  | absent => exact (hp hph).elim
  | running =>
    have he := (produces_running hph).1 hpr []
    rw [items_of_producerStep (taskStep_of_isSettled hset .producer) hph ho.producer hd hs hq,
      List.append_nil, List.append_nil, Codec.encodeAll, List.append_nil] at he
    exact he.symm
  | stopped =>
    rcases (produces_stopped hph).1 hpr with he | he | ⟨-, he⟩ | he
    · rw [hd] at he
      cases he
    · have hw : (ch.link l).outbound.isWritable = true := by
        simp [Stream.isWritable, ha, ho.outbound l (mem_arrivals_of_slot hs)]
      rw [hw] at he
      cases he
    · exact he.symm
    · have := he []
      rw [List.append_nil] at this
      exact this.symm

/-- In every run, whatever was given to the handler stands in the longest prefix of good frames of
the bytes behind the token, so nothing behind a bad frame ever reaches it. If moreover the streams
were started and not disabled, and the channel was not closed, then once all is settled the handler
has been given the whole of that prefix, and the worker, as long as it keeps its socket, was
written the frames of the longest prefix of the commands sent to its queue that can be encoded. -/
theorem settled_streams {m : Machine} {faults : Faults} {config : Config} {fresh : SessionId}
    {port : UInt16} {shape : Json.Shape} {start : Channel}
    (hstart : create m faults config fresh port shape = .ok start) (actions : List Action) :
    let ch := start.run actions
    (∀ l, ch.slot = some l → ∃ vs,
      start.codec.Holds ((ch.link l).inbound.written.drop start.session.length) vs ∧
        ch.handled <+: vs) ∧
    (start.obeys actions = true → ch.consumer.isStarted = true → ch.producer.isStarted = true →
      ch.closed = false → ch.disabled = false → ch.isSettled = true →
      ∃ l q, ch.slot = some l ∧ ch.commands = some q ∧
        start.codec.Holds ((ch.link l).inbound.written.drop start.session.length) ch.handled ∧
        ((ch.link l).outbound.abandoned = false →
          start.codec.Emits (sentTo q actions) (ch.link l).outbound.written)) := by
  intro ch
  have hi : ch.Inv := (Inv.of_create hstart).run actions
  obtain ⟨hcodec, hdesc⟩ := start.run_fixed actions
  have hsession : ch.session = start.session := congrArg Descriptor.session hdesc
  rw [← hsession, ← hcodec]
  refine ⟨fun l hs => ⟨_, Decoder.holds_items .., hi.handled_isPrefix hs⟩, ?_⟩
  intro hobeys hcons hprod hc hd hset
  have hp : ch.producer.phase ≠ .absent := by simpa [Task.isStarted] using hprod
  have hadm := hi.gathers.admitted_of_producer hp
  obtain ⟨l, hs⟩ := Option.isSome_iff_exists.1 hadm.slot
  obtain ⟨q, hq⟩ := Option.isSome_iff_exists.1 hadm.commands
  have hsupply : ch.Supplies fun q => sentTo q actions := by
    refine Supplies.run ?_ (.of_create hstart) actions hobeys hc
    obtain ⟨descriptor, codec, rfl⟩ := create_eq hstart
    exact .initial rfl rfl rfl
  refine ⟨l, q, hs, hq, ?_, fun ha => ?_⟩
  · rw [← hi.handled_eq hset hc hd (by simpa [Task.isStarted] using hcons) hs]
    exact Decoder.holds_items ..
  · rw [hsupply.written_eq hi hset hc hd hp hs hq ha]
    exact Codec.emits_encodeAll ..

theorem settled_streams_of_exampleRun :
    ∃ l q, (exampleStart.run exampleRun).slot = some l ∧
      (exampleStart.run exampleRun).commands = some q ∧
      exampleStart.codec.Holds (((exampleStart.run exampleRun).link l).inbound.written.drop
        exampleToken.length) (exampleStart.run exampleRun).handled ∧
      (((exampleStart.run exampleRun).link l).outbound.abandoned = false →
        exampleStart.codec.Emits (sentTo q exampleRun)
          ((exampleStart.run exampleRun).link l).outbound.written) :=
  (settled_streams create_exampleStart exampleRun).2 (by decide +kernel) (by decide +kernel)
    (by decide +kernel) (by decide +kernel) (by decide +kernel) (by decide +kernel)

end WorkerLink.Channel
