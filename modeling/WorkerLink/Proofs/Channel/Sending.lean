import Mathlib.Data.List.Induction
import WorkerLink.Proofs.Channel.Invariant
import WorkerLink.Proofs.Channel.Queues
import WorkerLink.Proofs.Frame.Encoding

/-!
# What the channel writes

As long as nobody takes from a queue, it holds what was sent to it. From then on the command
producer writes: what is written, together with the frames of what is still in the queue, is what
was sent, and once the producer has stopped there is a reason why nothing more is written
(`Produces`).
-/

namespace WorkerLink.Channel

variable {ch ch' : Channel} {a : Action} {l : LinkId} {q : QueueId} {w w' : Wiring}
  {sent sent' : List Payload}

/-- How far the command producer has come with what was sent to its queue. -/
def Produces (ch : Channel) (l : LinkId) (q : QueueId) (sent : List Payload) : Prop :=
  match ch.producer.phase with
  | .absent => True
  | .running => ∀ more, ch.codec.encodeAll (sent ++ more) =
      (ch.link l).outbound.written ++ ch.codec.encodeAll ((ch.queue q).items ++ more)
  | .stopped => ch.disabled = true ∨ (ch.link l).outbound.isWritable = false ∨
      ((ch.queue q).hasSender 0 = false ∧
        ch.codec.encodeAll sent = (ch.link l).outbound.written) ∨
      ∀ more, ch.codec.encodeAll (sent ++ more) = (ch.link l).outbound.written

/-- What has become of the commands that were sent to each queue. -/
structure Supplies (ch : Channel) (sent : QueueId → List Payload) : Prop where
  owns : ch.Owns
  waiting : ∀ q, (ch.queue q).isOpen = true →
    ch.producer.phase = .absent ∨ ch.commands ≠ some q → (ch.queue q).items = sent q
  produces : ∀ l q, ch.slot = some l → ch.commands = some q → ch.Produces l q (sent q)

theorem produces_running (hp : ch.producer.phase = .running) :
    ch.Produces l q sent ↔ ∀ more, ch.codec.encodeAll (sent ++ more) =
      (ch.link l).outbound.written ++ ch.codec.encodeAll ((ch.queue q).items ++ more) := by
  simp [Produces, hp]

theorem produces_stopped (hp : ch.producer.phase = .stopped) :
    ch.Produces l q sent ↔ ch.disabled = true ∨ (ch.link l).outbound.isWritable = false ∨
      ((ch.queue q).hasSender 0 = false ∧
        ch.codec.encodeAll sent = (ch.link l).outbound.written) ∨
      ∀ more, ch.codec.encodeAll (sent ++ more) = (ch.link l).outbound.written := by
  simp [Produces, hp]

/-! ## What stays -/

theorem Move.commands_eq (m : Move ch a ch') (h : ch.commands = some q) :
    ch'.commands = some q := by
  cases m with
  | acceptor m => cases m <;> exact h
  | verifier m =>
    cases m with
    | wire _ m | wired _ m => exact m.outcome_eq.2.2.1.trans h
    | _ => exact h
  | consumer m => cases m <;> exact h
  | producer m => cases m <;> exact h
  | relay m => cases m <;> exact h
  | call _ m =>
    cases m with
    | setCommands hn =>
      rw [h] at hn
      cases hn
    | wire m | wired m => exact m.outcome_eq.2.2.1.trans h
    | _ => exact h
  | _ => exact h

theorem WiringMove.disabled_eq (m : WiringMove ch w ch' w') : ch'.disabled = ch.disabled := by
  cases m <;> rfl

theorem Move.disabled (m : Move ch a ch') (h : ch.disabled = true) : ch'.disabled = true := by
  cases m with
  | acceptor m => cases m <;> exact h
  | verifier m =>
    cases m with
    | wire _ m | wired _ m => exact m.disabled_eq.trans h
    | _ => exact h
  | consumer m => cases m <;> exact h
  | producer m => cases m <;> exact h
  | relay m => cases m <;> exact h
  | call _ m =>
    cases m with
    | cancel => rfl
    | wire m | wired m => exact m.disabled_eq.trans h
    | _ => exact h
  | _ => exact h

theorem WiringMove.producer_phase (m : WiringMove ch w ch' w') (h : ch.At w) :
    ch'.producer.phase = ch.producer.phase ∨
      ch.producer.phase = .absent ∧ ch'.producer.phase = .running := by
  have st := h.streams
  cases m with
  | spawnProducer =>
    right
    have hp := congrArg (·.producerStarted) st
    simp only [streams, Wiring.streams, Task.isStarted, decide_eq_false_iff_not,
      Decidable.not_not] at hp
    exact ⟨hp, rfl⟩
  | _ => exact .inl rfl

/-- The command producer is started once, and stops by itself. -/
theorem Move.producer_phase (m : Move ch a ch') (h : ch.Gathers) (ha : a ≠ .task .producer) :
    ch'.producer.phase = ch.producer.phase ∨
      ch.producer.phase = .absent ∧ ch'.producer.phase = .running := by
  cases m with
  | acceptor m => cases m <;> exact .inl rfl
  | verifier m =>
    cases m with
    | wire hv m | wired hv m =>
      exact m.producer_phase (h.wired.of_mem (mem_wirings_of_verifier hv)).2.2.2
    | _ => exact .inl rfl
  | consumer m => cases m <;> exact .inl rfl
  | producer => exact (ha rfl).elim
  | relay m => cases m <;> exact .inl rfl
  | call hi m =>
    cases m with
    | wire m | wired m =>
      exact m.producer_phase (h.wired.of_mem (mem_wirings_of_call hi)).2.2.2
    | _ => exact .inl rfl
  | _ => exact .inl rfl

/-- What can no longer be written to stays so. -/
theorem Move.unwritable (m : Move ch a ch') (h : ch.Accepts) {k : LinkId}
    (hw : (ch.link k).outbound.isWritable = false) :
    (ch'.link k).outbound.isWritable = false := by
  cases m.link h k with
  | same he => rw [he, hw]
  | client ha he =>
    rw [he]
    have hb := Action.byClient ha (ch.link k)
    simp only [Stream.isWritable, Bool.and_eq_false_iff, Bool.not_eq_false', hb.ended] at hw ⊢
    exact hw.imp id hb.abandoned
  | turnedAway _ he | reclaimed _ _ he | shutDown _ _ _ he =>
    rw [he]
    exact Stream.isWritable_finish ..
  | read _ _ _ he => rw [he, hw]
  | written _ _ hwr he =>
    rw [(Stream.write_inv hwr).1] at hw
    cases hw

theorem mem_given_of_commands (h : ch.commands = some q) : q ∈ ch.given := by
  simp [given, h]

/-! ## Moves that do not take from a queue -/

theorem Produces.feed {new : List Payload} (h : ch.Produces l q sent) (hc : ch'.codec = ch.codec)
    (hp : ch'.producer.phase = ch.producer.phase) (hf : (ch.queue q).Fed (ch'.queue q) new)
    (hw : (ch'.link l).outbound.written = (ch.link l).outbound.written)
    (hu : (ch.link l).outbound.isWritable = false → (ch'.link l).outbound.isWritable = false)
    (hd : ch.disabled = true → ch'.disabled = true) : ch'.Produces l q (sent ++ new) := by
  unfold Produces at h ⊢
  rw [hp, hc, hw]
  cases hph : ch.producer.phase with
  | absent => trivial
  | running =>
    rw [hph] at h
    intro more
    rw [hf.items, List.append_assoc, List.append_assoc]
    exact h (new ++ more)
  | stopped =>
    rw [hph] at h
    rcases h with h | h | ⟨hs, he⟩ | h
    · exact .inl (hd h)
    · exact .inr (.inl (hu h))
    · obtain ⟨hs', rfl⟩ := hf.exhausted hs
      exact .inr (.inr (.inl ⟨hs', by rw [List.append_nil, he]⟩))
    · refine .inr (.inr (.inr fun more => ?_))
      rw [List.append_assoc]
      exact h (new ++ more)

/-- When the command producer starts, all that was sent is in its queue. -/
theorem produces_start (hp : ch'.producer.phase = .running)
    (hw : (ch'.link l).outbound.written = []) (hq : (ch'.queue q).items = sent) :
    ch'.Produces l q sent := by
  rw [produces_running hp, hw, hq]
  exact fun _ => rfl

theorem Gathers.admitted_of_producer (h : ch.Gathers) (hp : ch.producer.phase ≠ .absent) :
    ch.Admitted := by
  refine h.admitted fun hs => hp ?_
  have hst := congrArg (·.producerStarted) hs
  simpa [Channel.streams, Task.isStarted] using hst

theorem Supplies.feed {sent : QueueId → List Payload} (h : ch.Supplies sent) (hi : ch.Inv)
    (m : Move ch a ch') (hd : ch.dropped = false) (ha : a ≠ .task .producer)
    (hp : ch.permits a = true) :
    ch'.Supplies fun q => sent q ++ (a.command? q).toList := by
  have owns := h.owns.keeps m hd hp
  have phase := m.producer_phase hi.gathers ha
  have hwaiting : ∀ q, (ch'.queue q).isOpen = true →
      ch.producer.phase = .absent ∨ ch.commands ≠ some q →
      (ch'.queue q).items = sent q ++ (a.command? q).toList := by
    intro q ho hn
    rcases m.fed ha hd hp q with hf | hf
    · rw [ho] at hf
      cases hf
    · rw [hf.items, h.waiting q (hf.isOpen ▸ ho) hn]
  refine ⟨owns, fun q ho hn => hwaiting q ho (hn.imp (fun hn => ?_) fun hn hc => ?_),
    fun l q hs hc => ?_⟩
  · rcases phase with he | ⟨he, -⟩
    · exact he ▸ hn
    · exact he
  · exact hn (m.commands_eq hc)
  · have ho := (owns.known q (mem_given_of_commands hc)).2
    by_cases habs : ch.producer.phase = .absent
    · rcases phase with he | ⟨-, hr⟩
      · unfold Produces
        rw [he, habs]
        trivial
      · refine produces_start hr ?_ (hwaiting q ho (.inl habs))
        rw [m.written_eq hi.accepts ha, hi.unwritten l (.inr habs)]
    · have hadm := hi.gathers.admitted_of_producer habs
      obtain ⟨k, hk⟩ := Option.isSome_iff_exists.1 hadm.slot
      obtain ⟨j, hj⟩ := Option.isSome_iff_exists.1 hadm.commands
      obtain rfl : k = l := Option.some.inj ((m.slot_eq hk).symm.trans hs)
      obtain rfl : j = q := Option.some.inj ((m.commands_eq hj).symm.trans hc)
      have hph : ch'.producer.phase = ch.producer.phase :=
        phase.resolve_right fun he => habs he.1
      have hf := (m.fed ha hd hp j).resolve_left (by rw [ho]; nofun)
      exact (h.produces k j hk hj).feed m.fixed.1 hph hf (m.written_eq hi.accepts ha k)
        (m.unwritable hi.accepts) m.disabled

/-! ## Steps of the command producer -/

theorem link_modify_outbound {s : Stream} (hl : l < ch.links.length)
    (h : ch'.links = ch.links.modify l fun x => { x with outbound := s }) :
    (ch'.link l).outbound = s := by
  rw [link, h, getD_modify, if_pos ⟨rfl, hl⟩]

theorem queue_modify {x : CommandQueue Payload} (hq : q < ch.queues.length)
    (h : ch'.queues = ch.queues.modify q fun _ => x) : ch'.queue q = x := by
  rw [queue, h, getD_modify, if_pos ⟨rfl, hq⟩]

theorem queue_modify_of_ne {k : QueueId} {x : CommandQueue Payload} (hk : q ≠ k)
    (h : ch'.queues = ch.queues.modify q fun _ => x) : ch'.queue k = ch.queue k := by
  rw [queue, h, getD_modify, if_neg fun he => hk he.1, queue]

theorem ProducerMove.produces (m : ProducerMove ch ch') (h : ch.Produces l q sent)
    (ho : ch.Open) (hl : l < ch.links.length) (hlt : q < ch.queues.length)
    (hs : ch.slot = some l) (hc : ch.commands = some q) : ch'.Produces l q sent := by
  have hrun := (produces_running m.running).1 h
  have same {k : LinkId} {j : QueueId} (hk : ch.slot = some k) (hj : ch.commands = some j) :
      l = k ∧ q = j :=
    ⟨Option.some.inj (hs.symm.trans hk), Option.some.inj (hc.symm.trans hj)⟩
  cases m with
  | halt _ hh =>
    rw [ho.producer, Bool.false_or] at hh
    exact (produces_stopped rfl).2 (.inl hh)
  | exhausted _ hk hj hn =>
    obtain ⟨rfl, rfl⟩ := same hk hj
    obtain ⟨hi, hx⟩ := CommandQueue.next_exhausted_inv hn
    have he := hrun []
    rw [show (ch.queue q).items = [] from hi, List.append_nil, List.append_nil,
      Codec.encodeAll, List.append_nil] at he
    exact (produces_stopped rfl).2 (.inr (.inr (.inl ⟨hx, he⟩)))
  | refused _ hk hj hn he =>
    obtain ⟨rfl, rfl⟩ := same hk hj
    have hi := (CommandQueue.next_item_inv hn).1
    refine (produces_stopped rfl).2 (.inr (.inr (.inr fun more => ?_)))
    rw [hrun more, show (ch.queue q).items = _ from hi, List.cons_append,
      Codec.encodeAll_of_error he, List.append_nil]
    rfl
  | unwritable _ hk hj _ _ hw =>
    obtain ⟨rfl, rfl⟩ := same hk hj
    exact (produces_stopped rfl).2 (.inr (.inl hw))
  | @sent k j p x b s hr hk hj hn he hw =>
    obtain ⟨rfl, rfl⟩ := same hk hj
    have hi := (CommandQueue.next_item_inv hn).1
    refine (produces_running (by exact hr)).2 fun more => ?_
    rw [link_modify_outbound hl rfl, queue_modify hlt rfl, Stream.written_write hw, hrun more,
      show (ch.queue q).items = p :: x.items from hi, List.cons_append, Codec.encodeAll_cons he,
      List.append_assoc]

theorem ProducerMove.queue_eq (m : ProducerMove ch ch') (hq : ch.commands ≠ some q) :
    ch'.queue q = ch.queue q := by
  have ne {j : QueueId} (hj : ch.commands = some j) : j ≠ q := fun he => hq (he ▸ hj)
  cases m with
  | halt | exhausted => rfl
  | refused _ _ hj | unwritable _ _ hj | sent _ _ hj => exact queue_modify_of_ne (ne hj) rfl

theorem ProducerMove.started (m : ProducerMove ch ch') : ch'.producer.phase ≠ .absent := by
  cases m with
  | sent hr =>
    rw [hr]
    nofun
  | _ => nofun

theorem ProducerMove.bound_eq (m : ProducerMove ch ch') :
    ch'.slot = ch.slot ∧ ch'.commands = ch.commands := by
  cases m <;> exact ⟨rfl, rfl⟩

theorem Supplies.produce {sent : QueueId → List Payload} (h : ch.Supplies sent) (hi : ch.Inv)
    (ho : ch.Open) (m : ProducerMove ch ch') : ch'.Supplies sent := by
  refine ⟨h.owns.keeps (.producer m) ho.dropped rfl, fun q hopen hn => ?_, fun l q hs hc => ?_⟩
  · have hne : ch.commands ≠ some q := m.bound_eq.2 ▸ hn.resolve_left m.started
    rw [m.queue_eq hne] at hopen ⊢
    exact h.waiting q hopen (.inr hne)
  · rw [m.bound_eq.1] at hs
    rw [m.bound_eq.2] at hc
    exact m.produces (h.produces l q hs hc) ho (hi.accepts.slot_lt hs)
      (h.owns.known q (mem_given_of_commands hc)).1 hs hc

/-! ## Runs -/

theorem Supplies.keeps {sent : QueueId → List Payload} (h : ch.Supplies sent) (hi : ch.Inv)
    (m : Move ch a ch') (hc : ch.closed = false) (hp : ch.permits a = true) :
    ch'.Supplies fun q => sent q ++ (a.command? q).toList := by
  have ho := hi.open_of hc
  by_cases ha : a = .task .producer
  · subst ha
    have hn : (fun q => sent q ++ ((Action.task .producer).command? q).toList) = sent :=
      funext fun q => List.append_nil _
    rw [hn]
    cases m with
    | producer m => exact h.produce hi ho m
    | client hx => cases hx
  · exact h.feed hi m ho.dropped ha hp

theorem Supplies.initial (hq : ch.queues = []) (hg : ch.given = []) (hs : ch.slot = none) :
    ch.Supplies fun _ => [] := by
  refine ⟨⟨by simp [hg], fun q hm => by simp [hg] at hm⟩, fun q _ _ => by simp [queue, hq],
    fun l q hl => ?_⟩
  rw [hs] at hl
  cases hl

theorem step_cases_of_command (ch : Channel) (a : Action) :
    (ch.step a = ch ∧ ∀ q, a.command? q = none) ∨ Move ch a (ch.step a) := by
  cases a with
  | command q p => exact .inr .command
  | _ => exact (ch.step_cases _).imp (fun h => ⟨h, fun _ => rfl⟩) id

theorem closed_of_step (h : (ch.step a).closed = false) : ch.closed = false := by
  rcases ch.step_cases a with hs | hm
  · rwa [hs] at h
  · exact hm.open_of_open h

/-- In every run of a channel that is not closed, each command is where it belongs. -/
theorem Supplies.run (hs : ch.Supplies fun _ => []) (hi : ch.Inv) (actions : List Action)
    (hp : ch.obeys actions = true) (hc : (ch.run actions).closed = false) :
    (ch.run actions).Supplies fun q => sentTo q actions := by
  induction actions using List.reverseRecOn with
  | nil => exact hs
  | append_singleton as a ih =>
    rw [obeys_concat, Bool.and_eq_true] at hp
    rw [run_concat] at hc ⊢
    have hc' := closed_of_step hc
    have before := ih hp.1 hc'
    have hsent : (fun q => sentTo q (as ++ [a])) =
        fun q => sentTo q as ++ (a.command? q).toList := funext fun q => sentTo_concat q as a
    rw [hsent]
    rcases step_cases_of_command (ch.run as) a with ⟨he, hn⟩ | hm
    · simpa only [he, hn, Option.toList_none, List.append_nil] using before
    · exact before.keeps (hi.run as) hm hc' hp.2

end WorkerLink.Channel
