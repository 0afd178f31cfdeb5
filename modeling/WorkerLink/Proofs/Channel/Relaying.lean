import WorkerLink.Proofs.Channel.Settling
import WorkerLink.Proofs.Channel.Permits
import WorkerLink.Proofs.Console.Lines

/-!
# What the console relay has relayed

As long as the console relay runs, the console was given the lines of what the relay has taken of
the worker's output, and no others. It stops when it is told to, at the end of the output or at a
line that cannot be read (`Echoes`).
-/

namespace WorkerLink.Channel

open Console

variable {ch ch' : Channel} {a : Action} {c c' : Call} {w w' : Wiring}

/-- How the lines that the console was given belong to the worker's output. -/
def Echoes (ch : Channel) : Prop :=
  match ch.relay.phase with
  | .absent =>
    ch.output.taken = [] ∧ ch.output.abandoned = false ∧ ch.splitter = {} ∧ ch.lines = []
  | .running => ch.output.abandoned = false ∧
      Splitter.read {} ch.output.taken = ⟨ch.lines, .ok ch.splitter⟩
  | .stopped => ch.relay.aborted = true ∨ ch.output.ended = true ∨
      ∃ e, (Splitter.read {} ch.output.written).next = .error e

theorem echoes_running (h : ch.relay.phase = .running) : ch.Echoes ↔
    ch.output.abandoned = false ∧
      Splitter.read {} ch.output.taken = ⟨ch.lines, .ok ch.splitter⟩ := by
  simp [Echoes, h]

theorem echoes_stopped (h : ch.relay.phase = .stopped) : ch.Echoes ↔
    ch.relay.aborted = true ∨ ch.output.ended = true ∨
      ∃ e, (Splitter.read {} ch.output.written).next = .error e := by
  simp [Echoes, h]

/-! ## The steps of the relay -/

/-- While the relay runs, what it finds on its way is read behind what it has taken. -/
theorem Echoes.read_written (h : ch.Echoes) (hr : ch.relay.phase = .running) :
    Splitter.read {} ch.output.written =
      ⟨ch.lines ++ (ch.splitter.read ch.output.unread).lines,
        (ch.splitter.read ch.output.unread).next⟩ := by
  have htaken := ((echoes_running hr).1 h).2
  have hnext : (Splitter.read {} ch.output.taken).next = .ok ch.splitter := by rw [htaken]
  rw [Stream.written, Splitter.read_append hnext, htaken]

theorem Echoes.relayStep (h : ch.Echoes) (hs : ch.output.IsSound)
    (hstep : ch.relayStep = some ch') : ch'.Echoes ∧ ch'.output.IsSound := by
  have hr : ch.relay.phase = .running := by
    cases hp : ch.relay.phase with
    | running => rfl
    | absent | stopped => simp [Channel.relayStep, Task.isRunning, hp] at hstep
  have hkept := ((echoes_running hr).1 h).1
  have hrun : ch.relay.isRunning = true := by simp [Task.isRunning, hr]
  simp only [Channel.relayStep, hrun, Bool.not_true, Bool.false_eq_true, if_false] at hstep
  cases ha : ch.relay.aborted with
  | true =>
    simp only [ha, if_true, Option.some.injEq] at hstep
    subst hstep
    exact ⟨.inl ha, hs.grows ch.output.grows_abandon⟩
  | false =>
    simp only [ha, Bool.false_eq_true, if_false] at hstep
    by_cases hu : ch.output.unread = []
    · -- only at the end of the output, or an error there, has the relay something to do
      have hrec := Stream.receivesAll hu
      have hsound : ch.output.receiveAll.2.abandon.IsSound :=
        (hs.receive _).grows (Stream.grows_abandon _)
      generalize ch.output.receiveAll = found at hstep hrec hsound
      obtain ⟨found, output⟩ := found
      cases hrec with
      | data hb he => simp [hu, hb] at he
      | nothing => cases hstep
      | failed _ hb =>
        have he : ch.output.ended = true := by
          simpa [Stream.isWritable, hkept] using hs hb
        simp only [Option.some.injEq] at hstep
        subst hstep
        exact ⟨.inr (.inl he), hsound⟩
      | finished _ _ he =>
        have he : ch.output.ended = true := he.resolve_right (by simp [hkept])
        simp only at hstep
        cases hf : ch.splitter.finish with
        | error e =>
          simp only [hf, Option.some.injEq] at hstep
          subst hstep
          exact ⟨.inr (.inl he), hsound⟩
        | ok line =>
          cases line <;> simp only [hf, Option.some.injEq] at hstep <;> subst hstep <;>
            exact ⟨.inr (.inl he), hsound⟩
    · have hwritten := h.read_written hr
      simp only [Stream.receiveAll_data hu] at hstep
      cases hn : (ch.splitter.read ch.output.unread).next with
      | ok splitter =>
        simp only [hn, Option.some.injEq] at hstep
        subst hstep
        rw [hn] at hwritten
        exact ⟨(echoes_running (by exact hr)).2 ⟨hkept, hwritten⟩, hs⟩
      | error e =>
        simp only [hn, Option.some.injEq] at hstep
        subst hstep
        refine ⟨.inr (.inr ⟨e, ?_⟩), fun _ => Stream.isWritable_abandon⟩
        simp only [breakRelay, stopRelay, warn, Stream.written, Stream.taken_abandon,
          Stream.unread_abandon, List.append_nil]
        rw [← Stream.written, hwritten, hn]

/-! ## Every other move -/

theorem Echoes.print {b : Bytes} {output : Stream} (h : ch.Echoes)
    (hw : ch.output.write b = .ok output) : Echoes { ch with output } := by
  have hwritten := Stream.written_write hw
  obtain ⟨-, rfl⟩ := Stream.write_inv hw
  cases hp : ch.relay.phase with
  | absent | running => simpa only [Echoes, hp] using h
  | stopped =>
    refine (echoes_stopped (by exact hp)).2
      (((echoes_stopped hp).1 h).imp_right (.imp_right ?_))
    rintro ⟨e, he⟩
    refine ⟨e, ?_⟩
    rw [hwritten, Splitter.read_append_error he, he]

theorem Echoes.endOutput {e : Ending} (h : ch.Echoes) :
    Echoes { ch with output := ch.output.finish e } := by
  cases hp : ch.relay.phase with
  | absent | running =>
    simpa only [Echoes, hp, Stream.taken_finish, Stream.abandoned_finish] using h
  | stopped =>
    exact (echoes_stopped (by exact hp)).2 (.inr (.inl (Stream.ended_finish e)))

theorem WiringMove.echoes (m : WiringMove ch w ch' w') (h : ch.Echoes) : ch'.Echoes := by
  cases m <;> exact h

/-- The call that starts the relay is the only one to. -/
theorem Permits.relay_absent (hp : ch.Permits) (hm : c ∈ ch.calls) (hc : c.isRelaying = true) :
    ch.relay.phase = .absent := by
  have hpos : 0 < ch.calls.countP Call.isRelaying := List.countP_pos_iff.2 ⟨c, hm, hc⟩
  have hle := hp.relay
  have hh := ch.handler.toNat_le
  by_contra hne
  simp only [Task.isStarted, hne, ne_eq, not_false_eq_true, decide_true, Bool.toNat_true] at hle
  omega

theorem CallMove.echoes (m : CallMove ch c ch' c') (hm : c ∈ ch.calls) (h : ch.Echoes)
    (hp : ch.Permits) : ch'.Echoes := by
  cases m with
  | relayOutput =>
    unfold Echoes at h
    rw [hp.relay_absent hm rfl] at h
    obtain ⟨ht, ha, hs, hl⟩ := h
    refine (echoes_running rfl).2 ⟨ha, ?_⟩
    simp only [ht, hs, hl]
    rfl
  | abortConsole =>
    cases hph : ch.relay.phase with
    | absent | running => simpa only [Echoes, Task.abort, hph] using h
    | stopped =>
      refine (echoes_stopped (by exact hph)).2 (((echoes_stopped hph).1 h).imp_left fun ha => ?_)
      simp [Task.abort, ha]
  | wire m | wired m => exact m.echoes h
  | _ => exact h

theorem Move.echoes (m : Move ch a ch') (h : ch.Echoes) (hs : ch.output.IsSound)
    (hp : ch.Permits) (hstep : ch.step a = ch') : ch'.Echoes ∧ ch'.output.IsSound := by
  cases m with
  | acceptor m => cases m <;> exact ⟨h, hs⟩
  | verifier m =>
    cases m with
    | wire _ m | wired _ m => exact ⟨m.echoes h, m.output_eq ▸ hs⟩
    | _ => exact ⟨h, hs⟩
  | consumer m => cases m <;> exact ⟨h, hs⟩
  | producer m => cases m <;> exact ⟨h, hs⟩
  | relay =>
    cases hr : ch.relayStep with
    | some x =>
      obtain rfl : x = ch' := by simpa [step, taskStep, hr] using hstep
      exact h.relayStep hs hr
    | none =>
      obtain rfl : ch = ch' := by simpa [step, taskStep, hr] using hstep
      exact ⟨h, hs⟩
  | call hi m =>
    have hm := m.echoes (List.mem_of_getElem? hi) h hp
    refine ⟨hm, ?_⟩
    cases m with
    | wire m | wired m => exact m.output_eq ▸ hs
    | _ => exact hs
  | print hw => exact ⟨h.print hw, hs.grows (Stream.grows_write hw)⟩
  | endOutput => exact ⟨h.endOutput, hs.grows (Stream.grows_finish ..)⟩
  | _ => exact ⟨h, hs⟩

/-! ## Runs -/

/-- What is known of the worker's output. -/
structure Relays (ch : Channel) : Prop where
  inv : ch.Inv
  permits : ch.Permits
  echoes : ch.Echoes
  sound : ch.output.IsSound

namespace Relays

theorem step (h : ch.Relays) (a : Action) : (ch.step a).Relays := by
  rcases ch.step_cases a with hs | m
  · rwa [hs]
  · obtain ⟨he, hs⟩ := m.echoes h.echoes h.sound h.permits rfl
    exact ⟨h.inv.keeps m, h.permits.keeps h.inv m, he, hs⟩

theorem run (h : ch.Relays) (as : List Action) : (ch.run as).Relays := by
  induction as generalizing ch with
  | nil => exact h
  | cons a as ih => exact ih (h.step a)

theorem of_create {m : Machine} {faults : Faults} {config : Config} {fresh : SessionId}
    {port : UInt16} {shape : Json.Shape}
    (h : create m faults config fresh port shape = .ok ch) : ch.Relays := by
  have hi := Inv.of_create h
  obtain ⟨descriptor, codec, rfl⟩ := create_eq h
  exact ⟨hi, ⟨rfl, nofun, Nat.le_refl _⟩, ⟨rfl, rfl, rfl, rfl⟩, nofun⟩

/-- Once all is settled, a relay that was started and not told to stop still runs, and has relayed
every line, unless the output has ended or a line in it cannot be read. -/
theorem lines_eq (h : ch.Relays) (hset : ch.isSettled = true) (hr : ch.relay.isStarted = true)
    (ha : ch.relay.aborted = false) (he : ch.output.ended = false) {splitter : Splitter}
    (hn : (Splitter.read {} ch.output.written).next = .ok splitter) :
    ch.relay.isRunning = true ∧ ch.lines = (Splitter.read {} ch.output.written).lines := by
  have hechoes := h.echoes
  cases hp : ch.relay.phase with
  | absent => simp [Task.isStarted, hp] at hr
  | stopped =>
    rcases (echoes_stopped hp).1 hechoes with hx | hx | ⟨e, hx⟩
    · rw [ha] at hx
      cases hx
    · rw [he] at hx
      cases hx
    · rw [hn] at hx
      cases hx
  | running =>
    have hrun : ch.relay.isRunning = true := by simp [Task.isRunning, hp]
    have hu : ch.output.unread = [] := by
      by_contra hu
      have hstep : ch.relayStep = none := taskStep_of_isSettled hset .relay
      simp only [relayStep, hrun, ha, Stream.receiveAll_data hu, Bool.not_true,
        Bool.false_eq_true, if_false] at hstep
      split at hstep <;> cases hstep
    refine ⟨hrun, ?_⟩
    rw [hechoes.read_written hp, hu]
    exact (List.append_nil _).symm

end Relays

end WorkerLink.Channel
