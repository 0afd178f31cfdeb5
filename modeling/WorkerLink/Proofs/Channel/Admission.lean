import Mathlib.Data.List.Induction
import WorkerLink.Proofs.Channel.Invariant

/-!
# No traffic with an unverified peer

The connection in the worker slot is the first one that was accepted (`head_acceptances`), and
whatever was given to the handler or written to a client went over it, behind the right token.
-/

namespace WorkerLink.Channel

variable {ch ch' : Channel} {a : Action} {l : LinkId}

/-- The connection that an action accepts. -/
def acceptance? (ch : Channel) (a : Action) : Option LinkId :=
  if ch.acceptor.taken? = none then (ch.step a).acceptor.taken? else none

/-- The connections that a run accepts, in order. -/
def acceptances (ch : Channel) : List Action → List LinkId
  | [] => []
  | a :: as => (ch.acceptance? a).toList ++ (ch.step a).acceptances as

theorem acceptances_concat (ch : Channel) (as : List Action) (a : Action) :
    ch.acceptances (as ++ [a]) = ch.acceptances as ++ ((ch.run as).acceptance? a).toList := by
  induction as generalizing ch with
  | nil => simp [acceptances, run]
  | cons b as ih =>
    rw [List.cons_append, acceptances, ih, acceptances, List.append_assoc]
    rfl

/-- The connection that is in the worker slot, or about to be put there or turned away. -/
def front? (ch : Channel) : Option LinkId := ch.slot.or ch.acceptor.taken?

/-- Whatever happens, the first connection that is accepted goes into the worker slot. -/
theorem Move.front (m : Move ch a ch') (hc : ch.Accepts) :
    ch'.front? =
      ch.front?.or (if ch.acceptor.taken? = none then ch'.acceptor.taken? else none) := by
  have same (ha : ch'.acceptor.taken? = ch.acceptor.taken?) (hs : ch'.slot = ch.slot) :
      ch'.front? =
        ch.front?.or (if ch.acceptor.taken? = none then ch'.acceptor.taken? else none) := by
    cases h : ch.acceptor.taken? <;> simp [front?, ha, hs, h]
  cases m with
  | acceptor m =>
    cases m with
    | abort h | wake h | wait h | take h | refuse h | giveUp h | fail h | report h
    | accept h | skip h | announce h | verify h | verifyBlind h =>
      simp [front?, h, Acceptor.taken?, advance, openDescriptor, error]
    | turnAway h hs | claim h hs => simp [front?, h, hs, Acceptor.taken?]
  | verifier m =>
    obtain ⟨ha, hs, -⟩ := m.accepting
    exact same (by rw [ha]) hs
  | consumer m => cases m <;> exact same rfl rfl
  | producer m => cases m <;> exact same rfl rfl
  | relay m => cases m <;> exact same rfl rfl
  | call hi m =>
    refine same ?_ m.slot_eq
    cases m with
    | spawnAcceptor => rw [acceptor_absent hi rfl hc.hands]; rfl
    | wire m | wired m => simp only [m.accepting.1]
    | _ => rfl
  | _ => exact same rfl rfl

theorem step_front (hc : ch.Accepts) (a : Action) :
    (ch.step a).front? = ch.front?.or (ch.acceptance? a) := by
  rcases ch.step_cases a with hs | hm
  · rw [acceptance?, hs]
    cases h : ch.acceptor.taken? <;> simp [front?, h]
  · exact hm.front hc

/-- The first connection that a run accepts is in the worker slot, or about to be put there. -/
theorem head_acceptances (h : ch.Inv) (hs : ch.front? = none) (as : List Action) :
    (ch.acceptances as).head? = (ch.run as).front? := by
  induction as using List.reverseRecOn with
  | nil => exact hs.symm
  | append_singleton as a ih =>
    rw [acceptances_concat, run_concat, step_front (h.run as).accepts, ← ih, List.head?_append]
    cases (ch.run as).acceptance? a <;> rfl

/-! ## Traffic -/

/-- A stream that gave something out or took something in was started, so the worker is verified and
both registrations are there. -/
theorem Inv.admitted (h : ch.Inv)
    (ht : ch.handled ≠ [] ∨ ∃ l, (ch.link l).outbound.written ≠ []) : ch.Admitted := by
  refine h.gathers.admitted fun hs => ?_
  simp only [streams, Task.isStarted, StreamsBound.mk.injEq, decide_eq_false_iff_not,
    Decidable.not_not] at hs
  rcases ht with hh | ⟨l, hw⟩
  · exact hh (h.listens.idle hs.1).2
  · exact hw (h.unwritten l (.inr hs.2.2.1))

theorem Inv.isPrefix_handled (h : ch.Inv) (hs : ch.slot = some l) :
    ch.handled <+:
      (Decoder.ofBytes ((ch.link l).inbound.taken.drop ch.session.length)).items ch.codec := by
  have he := (h.listens.hears l hs).events
  unfold Events at he
  cases hp : ch.consumer.phase with
  | absent => rw [(h.listens.idle hp).2]; exact List.nil_prefix
  | running =>
    rw [hp] at he
    exact he.consumed.isPrefix_items
  | stopped =>
    rw [hp] at he
    exact he.elim (·.isPrefix_items) (·.2.2)

/-- In every run, no connection but the one in the worker slot is read or written. Once anything
was given to the handler or written to a client, the worker slot holds the first connection that was
accepted, the first bytes read from it were the token, verification has recorded so, a command
source and an event handler are registered, and the events are those of the bytes behind the
token. -/
theorem traffic_verified {m : Machine} {faults : Faults} {config : Config} {fresh : SessionId}
    {port : UInt16} {shape : Json.Shape} {start : Channel}
    (hstart : create m faults config fresh port shape = .ok start) (actions : List Action) :
    let ch := start.run actions
    (∀ l, ch.slot ≠ some l →
      (ch.link l).inbound.taken = [] ∧ (ch.link l).outbound.written = []) ∧
    (ch.handled ≠ [] ∨ (∃ l, (ch.link l).outbound.written ≠ []) →
      ∃ l, ch.slot = some l ∧ (start.acceptances actions).head? = some l ∧
        (ch.link l).inbound.taken.take start.session.length = start.session.bytes ∧
        ch.authentication = some .verified ∧ ch.commands.isSome = true ∧ ch.handler = true ∧
        ch.handled <+: (Decoder.ofBytes
          ((ch.link l).inbound.taken.drop start.session.length)).items start.codec) := by
  intro ch
  have h : ch.Inv := (Inv.of_create hstart).run actions
  obtain ⟨hcodec, hdesc⟩ := start.run_fixed actions
  have hsession : ch.session = start.session := congrArg Descriptor.session hdesc
  refine ⟨fun l hl => ⟨h.listens.silent l hl, h.unwritten l (.inl hl)⟩, fun ht => ?_⟩
  have hadm := h.admitted ht
  obtain ⟨l, hl⟩ := Option.isSome_iff_exists.1 hadm.slot
  have hfront : start.front? = none := by
    obtain ⟨descriptor, codec, rfl⟩ := create_eq hstart
    rfl
  have hr : ch.verifier.isRecorded = true := by
    have hs := h.gathers.shows
    rw [hadm.verified] at hs
    exact hs.isRecorded
  have hv := ((h.listens.hears l hl).token.verdict hr hadm.verified).verified
  rw [← hsession, ← hcodec]
  refine ⟨l, hl, ?_, hv.2, hadm.verified, hadm.commands, hadm.handler, h.isPrefix_handled hl⟩
  rw [head_acceptances (Inv.of_create hstart) hfront actions]
  simp [front?, ch, hl]

/-! ## A run -/

def exampleToken : SessionId := ⟨['k'], by decide, List.all_eq_true.1 (by decide)⟩

def exampleStart : Channel :=
  { descriptor := ⟨.ofIp .localhost 4000, exampleToken⟩, codec := { limit := 100 } }

theorem create_exampleStart :
    create ⟨true⟩ {} { frameLimit := 100 } exampleToken 4000 .any = .ok exampleStart := rfl

/-- Enough steps of every task, one after the other. -/
def exampleSettling : List Action :=
  [.acceptor, .verifier, .consumer, .producer].flatMap fun a => List.replicate 24 (.task a)

/-- A worker that sends the token and one event, and a command for it. -/
def exampleRun : List Action :=
  List.append [.makeQueue, .begin .connect, .call 0, .call 0, .call 0, .call 0, .join,
    .begin (.bindCommands 0), .call 1, .call 1, .call 1, .begin (.bindEvents false), .call 2,
    .call 2, .call 2, .call 2, .command 0 (.value (.bool true)),
    .send 0 (exampleToken.bytes ++ Codec.frame (Json.bytes .null))] exampleSettling

theorem traffic_verified_of_exampleRun :
    (exampleStart.run exampleRun).handled ≠ [] ∧
      ∃ l, (exampleStart.run exampleRun).slot = some l ∧
        ((exampleStart.run exampleRun).link l).inbound.taken.take exampleToken.length =
          exampleToken.bytes := by
  have hlength : (exampleStart.run exampleRun).handled.length = 0 + 1 := by decide +kernel
  have hh := List.ne_nil_of_length_eq_add_one hlength
  obtain ⟨l, hs, -, ht, -⟩ := (traffic_verified create_exampleStart exampleRun).2 (.inl hh)
  exact ⟨hh, l, hs, ht⟩

end WorkerLink.Channel
