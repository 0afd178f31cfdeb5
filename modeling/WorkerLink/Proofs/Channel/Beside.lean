import Mathlib.Tactic.Simps.Basic
import WorkerLink.Proofs.Channel.Accepting

/-!
# A channel that only the first client has come to

`Mirrors ch X` says that nobody has come to `ch` but the first client, and that `X` differs from it
only in what clients behind the first one have brought about: their connections, who of them is left
to be turned away, and whether a dropped channel has released what it held. The tasks that serve the
worker take the same steps in both.
-/

namespace WorkerLink.Channel

variable {ch ch' X : Channel} {l : LinkId}

/-! ## The relation -/

/-- A channel with all that clients behind the first one can bring about taken from another one. -/
@[simps] def beside (ch r : Channel) : Channel :=
  { ch with
    acceptor := r.acceptor, listener := r.listener, links := r.links, backlog := r.backlog
    queues := r.queues, reclaimed := r.reclaimed, log := r.log
    faults := { ch.faults with freeDescriptors := r.faults.freeDescriptors } }

/-- Accepting has come equally far in two channels, and whoever else waits in the second one came
behind the first client. -/
def Queued (ch X : Channel) : Prop :=
  X.acceptor = ch.acceptor ∧ X.listener = ch.listener ∧ ch.backlog <+: X.backlog ∧
    (ch.arrivals = [] → X.backlog = [] ∧ (ch.listener = .nobody ∨ ch.links = []))

/-- Nothing will use the worker's connection any more. -/
def IsOver (ch : Channel) : Prop :=
  ch.dropped = true ∧ (∀ c ∈ ch.calls, c.isReturned = true) ∧
    (ch.verifier = .finished ∨ ch.verifier = .dropped ∨
      ch.verifier = .absent ∧ (ch.acceptor = .absent ∨ ch.acceptor = .stopped)) ∧
    ch.consumer.isRunning = false ∧ ch.producer.isRunning = false

/-- The first of two channels has had no client but the first one, and the second one differs only
in what the others have brought about. -/
structure Mirrors (ch X : Channel) : Prop where
  eq : X = ch.beside X
  single : ch.links.length ≤ 1
  present : X.links = [] ↔ ch.links = []
  unbounded : ch.faults.freeDescriptors = none
  accepting : ch.verifier = .absent → Queued ch X
  worker : X.reclaimed = false → X.link 0 = ch.link 0 ∧ X.queues = ch.queues
  written : (X.link 0).outbound.written = (ch.link 0).outbound.written
  kept : X.reclaimed = false ∨ ch.IsOver

theorem WiringMove.reclaimed_eq {w w' : Wiring} (m : WiringMove ch w ch' w') :
    ch'.reclaimed = ch.reclaimed := by
  cases m <;> rfl

theorem reclaimed_arrive (ch : Channel) : ch.arrive.2.reclaimed = ch.reclaimed := by
  rcases ch.arrive_cases with ⟨-, h⟩ | ⟨n, -, h⟩ | ⟨-, h⟩ <;> simp [h, warn]

namespace Mirrors

theorem initial (h : ch.links = []) (hb : ch.backlog = []) (hf : ch.faults.freeDescriptors = none)
    (hr : ch.reclaimed = false) : Mirrors ch ch where
  eq := rfl
  single := by simp [h]
  present := Iff.rfl
  unbounded := hf
  accepting _ := ⟨rfl, rfl, List.prefix_rfl, fun _ => ⟨hb, .inr h⟩⟩
  worker _ := ⟨rfl, rfl⟩
  written := rfl
  kept := .inl hr

theorem exists_beside (h : Mirrors ch X) : ∃ r, X = ch.beside r := ⟨X, h.eq⟩

theorem pos_iff (h : Mirrors ch X) : 0 < X.links.length ↔ 0 < ch.links.length := by
  rw [List.length_pos_iff, List.length_pos_iff, ne_eq, ne_eq, h.present]

theorem canOpen (h : Mirrors ch X) : ch.canOpen = true := by
  rw [Channel.canOpen, h.unbounded]
  rfl

/-- The worker is the first client. -/
theorem eq_zero (h : Mirrors ch X) (hc : ch.Accepts) (hs : ch.slot = some l) : l = 0 :=
  Nat.lt_one_iff.1 (Nat.lt_of_lt_of_le (hc.slot_lt hs) h.single)

/-- A change of the first client's connection. -/
theorem onLink {f : Link → Link} (h : Mirrors ch X)
    (hf : X.reclaimed = false ∨ ∀ x, (f x).outbound.written = x.outbound.written) :
    Mirrors (ch.onLink 0 f) (X.onLink 0 f) := by
  obtain ⟨r, rfl⟩ := h.exists_beside
  have hlink (he : (ch.beside r).link 0 = ch.link 0) :
      ((ch.beside r).onLink 0 f).link 0 = (ch.onLink 0 f).link 0 := by
    rw [link_onLink, link_onLink, he]
    simp only [h.pos_iff]
  exact
    { h with
      eq := rfl
      single := by rw [length_onLink]; exact h.single
      present := by simpa [Channel.onLink] using h.present
      accepting := fun hv => by
        obtain ⟨ha, hl, hb, he⟩ := h.accepting hv
        exact ⟨ha, hl, hb, fun hn => ⟨(he hn).1, (he hn).2.imp_right fun hx => by
          simp [Channel.onLink, hx]⟩⟩
      worker := fun hr => ⟨hlink (h.worker hr).1, (h.worker hr).2⟩
      written := by
        rcases hf with hr | hf
        · rw [hlink (h.worker hr).1]
        · rw [link_onLink, link_onLink]
          simp only [h.pos_iff]
          split
          · rw [hf, hf, h.written]
          · exact h.written }

theorem onQueue (h : Mirrors ch X) (q : QueueId) (f : CommandQueue Payload → CommandQueue Payload) :
    Mirrors (ch.onQueue q f) (X.onQueue q f) := by
  obtain ⟨r, rfl⟩ := h.exists_beside
  exact
    { h with
      eq := rfl
      worker := fun hr => ⟨(h.worker hr).1, congrArg (List.modify · q f) (h.worker hr).2⟩ }

/-! ## Steps of the tasks

A step that leaves alone what the relation reads of the two channels keeps it as it stands: what is
left to prove is which fields the step writes, and that it writes the same in both. -/

/-- A step of binding the streams. -/
theorem wire (h : Mirrors ch X) (hr : X.reclaimed = false) (hd : X.canOpen = true) (w : Wiring) :
    (X.wire w).2 = (ch.wire w).2 ∧ Mirrors (ch.wire w).1 (X.wire w).1 := by
  have ho := h.canOpen
  obtain ⟨r, rfl⟩ := h.exists_beside
  cases w with
  | start | recheck | finished => exact ⟨rfl, h⟩
  | judge =>
    simp only [Channel.wire, beside_authentication]
    split
    · exact ⟨rfl, h⟩
    · exact ⟨rfl, { h with eq := rfl, kept := .inl hr }⟩
  | gather =>
    simp only [Channel.wire, beside_slot, beside_commands, beside_handler]
    split
    · exact ⟨rfl, h⟩
    · exact ⟨rfl, { h with eq := rfl, kept := .inl hr }⟩
  | connect =>
    simp only [Channel.wire, ho, hd, if_true]
    refine ⟨trivial, { h with eq := rfl, unbounded := ?_, kept := .inl hr }⟩
    simp [openDescriptor, h.unbounded]
  | _ => exact ⟨rfl, { h with eq := rfl, kept := .inl hr }⟩

theorem arrive (h : Mirrors ch X) (hr : X.reclaimed = false) :
    X.arrive.1 = ch.arrive.1 ∧ Mirrors ch.arrive.2 X.arrive.2 := by
  obtain ⟨r, rfl⟩ := h.exists_beside
  simp only [Channel.arrive, beside_gate]
  split <;> exact ⟨rfl, { h with eq := rfl, kept := .inl hr }⟩

/-- What is read of the first client is the same. -/
theorem inbound (h : Mirrors ch X) (hr : X.reclaimed = false) :
    (X.link 0).inbound = (ch.link 0).inbound := by
  rw [(h.worker hr).1]

theorem readToken (h : Mirrors ch X) (hc : ch.Accepts) (hr : X.reclaimed = false) (got : Bytes) :
    Mirrors ((ch.readToken got).getD ch) ((X.readToken got).getD X) := by
  have closed : ch.faults.freeDescriptors.map (· + 1) = none := by rw [h.unbounded]; rfl
  have hin := h.inbound hr
  obtain ⟨r, rfl⟩ := h.exists_beside
  cases hs : ch.slot with
  | none => simpa [Channel.readToken, hs] using h
  | some l =>
    obtain rfl := h.eq_zero hc hs
    have hsession : (ch.beside r).session = ch.session := rfl
    simp only [Channel.readToken, hs, beside_slot, hin, hsession]
    match (ch.link 0).inbound.receive (ch.session.length - got.length) with
    | (.nothing, s) => exact h
    | (.finished, s) =>
      have h' := h.onLink (f := fun x => { x with inbound := s }) (.inl hr)
      exact { h' with eq := rfl, unbounded := closed, accepting := nofun, kept := .inl hr }
    | (.failed e, s) =>
      have h' := h.onLink (f := fun x => { x with inbound := s }) (.inl hr)
      exact { h' with eq := rfl, unbounded := closed, accepting := nofun, kept := .inl hr }
    | (.data b, s) =>
      have h' := h.onLink (f := fun x => { x with inbound := s }) (.inl hr)
      dsimp only
      split
      · exact { h' with eq := rfl, accepting := nofun, kept := .inl hr }
      · exact { h' with eq := rfl, unbounded := closed, accepting := nofun, kept := .inl hr }

/-- Verification has been started and comes to another point. -/
theorem verifier (h : Mirrors ch X) (hr : X.reclaimed = false) {v : Verifier} (hv : v ≠ .absent) :
    Mirrors { ch with verifier := v } { X with verifier := v } := by
  obtain ⟨r, rfl⟩ := h.exists_beside
  exact { h with eq := rfl, accepting := fun hn => (hv hn).elim, kept := .inl hr }

theorem verifierStep (h : Mirrors ch X) (hc : ch.Accepts) (hr : X.reclaimed = false)
    (hd : X.canOpen = true) :
    Mirrors (ch.verifierStep.getD ch) (X.verifierStep.getD X) := by
  have hv : X.verifier = ch.verifier := by rw [h.eq]; rfl
  unfold Channel.verifierStep
  rw [hv]
  cases hv : ch.verifier with
  | absent | finished | dropped => exact h
  | reading got => exact h.readToken hc hr got
  | arriving =>
    obtain ⟨ho, h'⟩ := h.arrive hr
    simp only [ho]
    refine h'.verifier (X.reclaimed_arrive.trans hr) ?_
    split <;> nofun
  | wiring w =>
    obtain ⟨ho, h'⟩ := h.wire hr hd w
    simp only [ho]
    refine h'.verifier ((X.wire_move w).reclaimed_eq.trans hr) ?_
    split <;> nofun
  | spawned handle =>
    obtain ⟨r, rfl⟩ := h.exists_beside
    cases handle <;> exact { h with eq := rfl, accepting := nofun, kept := .inl hr }
  | judged o | recording o =>
    obtain ⟨r, rfl⟩ := h.exists_beside
    exact { h with eq := rfl, accepting := nofun, kept := .inl hr }
  | publishing o =>
    obtain ⟨r, rfl⟩ := h.exists_beside
    cases ho : o.isVerified with
    | true =>
      simp only [ho, if_true]
      exact { h with eq := rfl, accepting := nofun, kept := .inl hr }
    | false =>
      simp only [ho, Bool.false_eq_true, if_false]
      exact { h with eq := rfl, accepting := nofun, kept := .inl hr }

theorem closeDescriptor (h : Mirrors ch X) (hr : X.reclaimed = false) :
    Mirrors ch.closeDescriptor X.closeDescriptor := by
  obtain ⟨r, rfl⟩ := h.exists_beside
  exact
    { h with
      eq := rfl
      unbounded := by rw [Channel.closeDescriptor, h.unbounded]; rfl
      kept := .inl hr }

theorem stopConsumer (h : Mirrors ch X) (hr : X.reclaimed = false) :
    Mirrors ch.stopConsumer X.stopConsumer := by
  have hclose := h.closeDescriptor hr
  obtain ⟨r, rfl⟩ := h.exists_beside
  simp only [Channel.stopConsumer, beside_producer]
  split
  · exact { hclose with eq := rfl, kept := .inl hr }
  · exact { h with eq := rfl, kept := .inl hr }

theorem stopProducer (h : Mirrors ch X) (hr : X.reclaimed = false) :
    Mirrors ch.stopProducer X.stopProducer := by
  have hclose := h.closeDescriptor hr
  obtain ⟨r, rfl⟩ := h.exists_beside
  simp only [Channel.stopProducer, beside_consumer]
  split
  · exact { hclose with eq := rfl, kept := .inl hr }
  · exact { h with eq := rfl, kept := .inl hr }

theorem consumerStep (h : Mirrors ch X) (hc : ch.Accepts) (hr : X.reclaimed = false) :
    Mirrors (ch.consumerStep.getD ch) (X.consumerStep.getD X) := by
  have hin := h.inbound hr
  have hstop := h.stopConsumer hr
  obtain ⟨r, rfl⟩ := h.exists_beside
  simp only [Channel.consumerStep, beside_consumer, beside_disabled, beside_slot, beside_reader,
    beside_codec]
  split
  · exact h
  · split
    · exact hstop
    · cases hs : ch.slot with
      | none => exact h
      | some l =>
        obtain rfl := h.eq_zero hc hs
        simp only [hin]
        match ch.reader.step ch.codec (ch.link 0).inbound with
        | (found, reader, stream) =>
          have h' := h.onLink (f := fun x => { x with inbound := stream }) (.inl hr)
          have hnext : Mirrors { ch.onLink 0 fun x => { x with inbound := stream } with reader }
              { (ch.beside r).onLink 0 fun x => { x with inbound := stream } with reader } :=
            { h' with eq := rfl, kept := .inl hr }
          cases found with
          | pending => exact h
          | arrived => exact hnext
          | item v => exact { hnext with eq := rfl, kept := .inl hr }
          | failed e => exact stopConsumer { hnext with eq := rfl, kept := .inl hr } hr
          | ended => exact hnext.stopConsumer hr

theorem producerStep (h : Mirrors ch X) (hc : ch.Accepts) (hr : X.reclaimed = false) :
    Mirrors (ch.producerStep.getD ch) (X.producerStep.getD X) := by
  obtain ⟨hlink, hqueues⟩ := h.worker hr
  have hstop := h.stopProducer hr
  obtain ⟨r, rfl⟩ := h.exists_beside
  simp only [Channel.producerStep, beside_producer, beside_disabled, beside_slot, beside_commands,
    beside_codec]
  split
  · exact h
  · split
    · exact hstop
    · cases hs : ch.slot with
      | none => exact h
      | some l =>
        cases hq : ch.commands with
        | none => exact h
        | some q =>
          obtain rfl := h.eq_zero hc hs
          simp only [hlink, hqueues]
          match (ch.queues.getD q {}).next with
          | (found, queue) =>
            have hnext := h.onQueue q fun _ => queue
            cases found with
            | pending => exact h
            | exhausted => exact hstop
            | item p =>
              have failed (m : String) :
                  Mirrors ((ch.onQueue q fun _ => queue).error m).stopProducer
                    (((ch.beside r).onQueue q fun _ => queue).error m).stopProducer :=
                stopProducer { hnext with eq := rfl, kept := .inl hr } hr
              dsimp only
              cases ch.codec.encode p with
              | error e => exact failed _
              | ok frame =>
                dsimp only
                cases (ch.link 0).outbound.write frame with
                | error e => exact failed _
                | ok stream => exact hnext.onLink (.inl hr)

theorem relayStep (h : Mirrors ch X) :
    Mirrors (ch.relayStep.getD ch) (X.relayStep.getD X) := by
  obtain ⟨r, rfl⟩ := h.exists_beside
  simp only [Channel.relayStep, beside_relay, beside_output, beside_splitter]
  split
  · exact h
  · split
    · exact { h with eq := rfl }
    · match ch.output.receiveAll with
      | (.nothing, output) => exact h
      | (.failed e, output) => exact { h with eq := rfl }
      | (.data b, output) =>
        dsimp only
        cases (ch.splitter.read b).next <;> exact { h with eq := rfl }
      | (.finished, output) =>
        dsimp only
        cases ch.splitter.finish with
        | error e => exact { h with eq := rfl }
        | ok line => cases line <;> exact { h with eq := rfl }

end Mirrors

end WorkerLink.Channel
