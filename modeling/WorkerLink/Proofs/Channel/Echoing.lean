import WorkerLink.Proofs.Channel.Admission
import WorkerLink.Proofs.Channel.Relaying
import WorkerLink.Proofs.Console.Splitting

/-!
# What the console is given in the end

The console relay takes the worker's output whenever it gets a turn, so in any pieces. The lines
that it gives the console are at any time the first ones of the whole output, and all of them once
the relay has stopped by itself (`Tells`): behind the last line, or at one that cannot be read, in
front of which the lines of an output end. At most two turns after the end of the output it has
stopped (`console_lines`).
-/

namespace WorkerLink

/-- Whether an action is the worker's, on its output. -/
def Action.isOutput : Action → Bool
  | .print _ | .endOutput _ => true
  | _ => false

/-- What the worker has written to its output, and whether it has ended it. -/
structure Printed where
  bytes : Bytes := []
  ended : Bool := false

namespace Printed

/-- What is written behind the end is lost. -/
def after (x : Printed) : Action → Printed
  | .print b => if x.ended then x else { x with bytes := x.bytes ++ b }
  | .endOutput _ => { x with ended := true }
  | _ => x

/-- Whether more may still come. -/
def Allows (x : Printed) (more : Bytes) : Prop := x.ended = true → more = []

theorem after_eq {a : Action} (x : Printed) (ha : a.isOutput = false) : x.after a = x := by
  cases a with
  | print | endOutput => cases ha
  | _ => rfl

/-- What is written piece by piece is the whole in the end. -/
theorem foldl_after (x : Printed) {as : List Action} {chunks : List Bytes}
    (hx : x.ended = false)
    (h : as.filter Action.isOutput = chunks.map .print ++ [.endOutput .finished]) :
    as.foldl after x = ⟨x.bytes ++ chunks.flatten, true⟩ := by
  have hfilter : as.foldl after x = (as.filter Action.isOutput).foldl after x := by
    rw [List.foldl_filter]
    congr
    funext y a
    cases ha : a.isOutput with
    | true => rfl
    | false => exact y.after_eq ha
  rw [hfilter, h]
  clear h hfilter
  induction chunks generalizing x with
  | nil => simp [after]
  | cons b chunks ih =>
    have hafter : x.after (.print b) = { x with bytes := x.bytes ++ b } := if_neg (by simp [hx])
    rw [List.map_cons, List.cons_append, List.foldl_cons, hafter,
      ih { x with bytes := x.bytes ++ b } hx, List.flatten_cons, List.append_assoc]

end Printed

namespace Channel

open Console

variable {ch ch' : Channel} {a : Action} {as : List Action} {chunks : List Bytes} {x : Printed}

/-- How the lines that the console was given belong to what the worker has printed, whatever more it
prints. -/
structure Tells (x : Printed) (ch : Channel) : Prop where
  unbroken : ch.output.broken = false
  /-- As long as somebody reads the output it is what the worker has printed. -/
  heard : ch.relay.phase ≠ .stopped →
    ch.output.abandoned = false ∧ ch.output.written = x.bytes ∧ ch.output.ended = x.ended
  first : ∀ more, x.Allows more → ch.lines <+: linesOf (x.bytes ++ more)
  all : ch.relay.phase = .stopped → ch.relay.aborted = false →
    ∀ more, x.Allows more → ch.lines = linesOf (x.bytes ++ more)

namespace Tells

/-! ## The steps of the relay -/

/-- A relay that stops with all lines that can be read has told them. -/
theorem of_stopped (hb : ch.output.broken = false) (hp : ch.relay.phase = .stopped)
    (hl : ∀ more, x.Allows more → ch.lines = linesOf (x.bytes ++ more)) : Tells x ch where
  unbroken := hb
  heard hn := (hn hp).elim
  first more hm := hl more hm ▸ List.prefix_rfl
  all _ _ := hl

/-- What the relay has taken, and what it stands at, while it runs. -/
theorem taken_eq (hr : ch.Relays) (hp : ch.relay.phase = .running) :
    Splitter.read {} ch.output.taken = ⟨ch.lines, .ok ch.splitter⟩ :=
  ((echoes_running hp).1 hr.echoes).2

theorem relayStep (h : Tells x ch) (hr : ch.Relays) (hstep : ch.relayStep = some ch') :
    Tells x ch' := by
  have hp : ch.relay.phase = .running := by
    cases hp : ch.relay.phase with
    | running => rfl
    | absent | stopped => simp [Channel.relayStep, Task.isRunning, hp] at hstep
  have hrun : ch.relay.isRunning = true := by simp [Task.isRunning, hp]
  have hechoes := (hr.echoes.relayStep hr.sound hstep).1
  obtain ⟨hkept, hbytes, hended⟩ := h.heard fun hn => by cases hp.symm.trans hn
  have htaken := taken_eq hr hp
  simp only [Channel.relayStep, hrun, Bool.not_true, Bool.false_eq_true, if_false] at hstep
  cases ha : ch.relay.aborted with
  | true =>
    simp only [ha, if_true, Option.some.injEq] at hstep
    subst hstep
    refine ⟨h.unbroken, fun hn => (hn rfl).elim, h.first, fun _ hf => ?_⟩
    cases ha.symm.trans hf
  | false =>
    simp only [ha, Bool.false_eq_true, if_false] at hstep
    by_cases hu : ch.output.unread = []
    · have hrec := Stream.receivesAll hu
      generalize ch.output.receiveAll = found at hstep hrec
      obtain ⟨found, output⟩ := found
      cases hrec with
      | data hb he => simp [hu, hb] at he
      | nothing => cases hstep
      | failed _ hb => cases h.unbroken.symm.trans hb
      | finished _ hb he =>
        have hend : x.ended = true := hended ▸ he.resolve_right (by simp [hkept])
        have hall : ch.lines ++ Splitter.lastLine (.ok ch.splitter) = linesOf x.bytes := by
          rw [← hbytes, Stream.written, hu, List.append_nil, ← Splitter.finished_eq, htaken]
        have hlines (more : Bytes) (hm : x.Allows more) :
            ch.lines ++ Splitter.lastLine (.ok ch.splitter) = linesOf (x.bytes ++ more) := by
          rw [hm hend, List.append_nil, hall]
        cases hf : ch.splitter.finish with
        | error e =>
          simp only [hf, Option.some.injEq] at hstep
          simp only [Splitter.lastLine_ok, hf, List.append_nil] at hlines
          subst hstep
          exact of_stopped hb rfl hlines
        | ok line =>
          simp only [Splitter.lastLine_ok, hf] at hlines
          cases line with
          | none =>
            simp only [hf, Option.some.injEq] at hstep
            simp only [Option.toList_none, List.append_nil] at hlines
            subst hstep
            exact of_stopped hb rfl hlines
          | some line =>
            simp only [hf, Option.some.injEq] at hstep
            subst hstep
            exact of_stopped hb rfl hlines
    · have hwritten := hr.echoes.read_written hp
      simp only [Stream.receiveAll_data hu] at hstep
      cases hn : (ch.splitter.read ch.output.unread).next with
      | ok splitter =>
        simp only [hn, Option.some.injEq] at hstep
        subst hstep
        rw [hn] at hwritten
        refine ⟨h.unbroken, fun _ => ⟨hkept, by simpa [Stream.written] using hbytes, hended⟩,
          fun more _ => ?_, fun hs => ?_⟩
        · have hfirst := Splitter.lines_isPrefix ch.output.written more
          rwa [hwritten, hbytes] at hfirst
        · cases hp.symm.trans hs
      | error e =>
        simp only [hn, Option.some.injEq] at hstep
        subst hstep
        refine of_stopped h.unbroken rfl fun more _ => ?_
        rw [hn] at hwritten
        have hfault := Splitter.lines_of_fault (congrArg Split.next hwritten) more
        rwa [hwritten, hbytes] at hfault

/-! ## Every other action -/

theorem same (h : Tells x ch) (ho : ch'.output = ch.output) (hl : ch'.lines = ch.lines)
    (hp : ch'.relay.phase = .stopped ↔ ch.relay.phase = .stopped)
    (ha : ch'.relay.aborted = false → ch.relay.aborted = false) : Tells x ch' where
  unbroken := ho ▸ h.unbroken
  heard hn := ho ▸ h.heard (mt hp.2 hn)
  first := hl ▸ h.first
  all hs hf := hl ▸ h.all (hp.1 hs) (ha hf)

theorem print (h : Tells x ch) (b : Bytes) :
    Tells (x.after (.print b)) (ch.step (.print b)) := by
  have more_of {y : Bytes} (hx : x.ended = false) : x.Allows y := fun hn => by
    cases hx.symm.trans hn
  cases hx : x.ended with
  | true =>
    have hafter : x.after (.print b) = x := if_pos hx
    rw [hafter, step]
    cases hw : ch.output.write b with
    | error e => exact h
    | ok output =>
      obtain ⟨hopen, rfl⟩ := Stream.write_inv hw
      refine ⟨h.unbroken, fun hn => ?_, h.first, h.all⟩
      have hend := (h.heard hn).2.2.trans hx
      simp [Stream.isWritable, hend] at hopen
  | false =>
    have hafter : x.after (.print b) = { x with bytes := x.bytes ++ b } := if_neg (by simp [hx])
    have first (more : Bytes) : ch.lines <+: linesOf (x.bytes ++ b ++ more) := by
      rw [List.append_assoc]
      exact h.first _ (more_of hx)
    have all (hs : ch.relay.phase = .stopped) (hf : ch.relay.aborted = false) (more : Bytes) :
        ch.lines = linesOf (x.bytes ++ b ++ more) := by
      rw [List.append_assoc]
      exact h.all hs hf _ (more_of hx)
    rw [hafter, step]
    cases hw : ch.output.write b with
    | error e =>
      refine ⟨h.unbroken, fun hn => ?_, fun more _ => first more,
        fun hs hf more _ => all hs hf more⟩
      -- a stream that is read and has not ended takes every byte
      obtain ⟨hkept, -, hend⟩ := h.heard hn
      have hclosed := Stream.write_error_inv hw
      simp [Stream.isWritable, hend, hx, hkept] at hclosed
    | ok output =>
      have hwritten := Stream.written_write hw
      obtain ⟨-, rfl⟩ := Stream.write_inv hw
      refine ⟨h.unbroken, fun hn => ?_, fun more _ => first more,
        fun hs hf more _ => all hs hf more⟩
      obtain ⟨hkept, hbytes, hend⟩ := h.heard hn
      exact ⟨hkept, by rw [hwritten, hbytes], hend⟩

theorem finish (h : Tells x ch) :
    Tells (x.after (.endOutput .finished)) (ch.step (.endOutput .finished)) where
  unbroken := h.unbroken
  heard hn := by
    obtain ⟨hkept, hbytes, -⟩ := h.heard hn
    exact ⟨hkept, hbytes, rfl⟩
  first more hm := by
    rw [hm rfl]
    exact h.first [] fun _ => rfl
  all hs hf more hm := by
    rw [hm rfl]
    exact h.all hs hf [] fun _ => rfl

end Tells

/-- Only the relay itself and the worker do something to the output, and nobody else stops or
restarts the relay. -/
theorem Move.relay_kept (m : Move ch a ch') (hp : ch.Permits) (ho : a.isOutput = false)
    (ha : a ≠ .task .relay) :
    ch'.output = ch.output ∧ (ch'.relay.phase = .stopped ↔ ch.relay.phase = .stopped) ∧
      (ch'.relay.aborted = false → ch.relay.aborted = false) := by
  cases m with
  | acceptor m => cases m <;> exact ⟨rfl, .rfl, id⟩
  | verifier m =>
    cases m with
    | wire _ m | wired _ m =>
      refine ⟨m.output_eq, ?_⟩
      rw [m.relay_eq]
      exact ⟨.rfl, id⟩
    | _ => exact ⟨rfl, .rfl, id⟩
  | consumer m => cases m <;> exact ⟨rfl, .rfl, id⟩
  | producer m => cases m <;> exact ⟨rfl, .rfl, id⟩
  | relay => exact (ha rfl).elim
  | call hi m =>
    cases m with
    | wire m | wired m =>
      refine ⟨m.output_eq, ?_⟩
      rw [m.relay_eq]
      exact ⟨.rfl, id⟩
    | relayOutput =>
      have habsent := hp.relay_absent (List.mem_of_getElem? hi) rfl
      refine ⟨rfl, ⟨fun hs => ?_, fun hs => ?_⟩, id⟩
      · cases hs
      · cases habsent.symm.trans hs
    | abortConsole =>
      refine ⟨rfl, .rfl, fun hf => ?_⟩
      simp only [Task.abort, Bool.or_eq_false_iff] at hf
      exact hf.1
    | _ => exact ⟨rfl, .rfl, id⟩
  | print | endOutput => cases ho
  | _ => exact ⟨rfl, .rfl, id⟩

namespace Tells

theorem step (h : Tells x ch) (hr : ch.Relays) (ha : a ≠ .endOutput .reset) :
    Tells (x.after a) (ch.step a) := by
  cases ho : a.isOutput with
  | true =>
    cases a with
    | print b => exact h.print b
    | endOutput e =>
      cases e with
      | finished => exact h.finish
      | reset => exact (ha rfl).elim
    | _ => cases ho
  | false =>
    rw [x.after_eq ho]
    by_cases ht : a = .task .relay
    · subst ht
      rw [Channel.step, taskStep]
      cases hs : ch.relayStep with
      | none => exact h
      | some ch' => exact h.relayStep hr hs
    · rcases ch.step_cases a with hs | m
      · rwa [hs]
      · obtain ⟨hout, hphase, hab⟩ := m.relay_kept hr.permits ho ht
        exact h.same hout (m.lines_eq ht) hphase hab

theorem run (h : Tells x ch) (hr : ch.Relays) (ha : .endOutput .reset ∉ as) :
    Tells (as.foldl Printed.after x) (ch.run as) := by
  induction as generalizing x ch with
  | nil => exact h
  | cons a as ih =>
    have hne : a ≠ .endOutput .reset := fun he => ha (List.mem_cons.2 (.inl he.symm))
    exact ih (h.step hr hne) (hr.step a) fun hm => ha (List.mem_cons_of_mem _ hm)

theorem of_create {m : Machine} {faults : Faults} {config : Config} {fresh : SessionId}
    {port : UInt16} {shape : Json.Shape}
    (h : create m faults config fresh port shape = .ok ch) : Tells {} ch := by
  obtain ⟨descriptor, codec, rfl⟩ := create_eq h
  exact ⟨rfl, fun _ => ⟨rfl, rfl, rfl⟩, fun _ _ => List.nil_prefix, nofun⟩

/-! ## Behind the end of the output -/

/-- Behind the end of the output a relay that runs has something to do. -/
theorem isSome_relayStep (hp : ch.relay.phase = .running) (he : ch.output.ended = true) :
    ch.relayStep.isSome = true := by
  have hrun : ch.relay.isRunning = true := by simp [Task.isRunning, hp]
  have hne : ch.output.receiveAll.1 ≠ .nothing := by
    by_cases hu : ch.output.unread = []
    · have hrec := Stream.receivesAll hu
      generalize ch.output.receiveAll.1 = found at hrec ⊢
      generalize ch.output.receiveAll.2 = output at hrec
      cases hrec with
      | nothing _ _ hn => cases he.symm.trans hn
      | _ => exact fun hn => by cases hn
    · rw [Stream.receiveAll_data hu]
      exact fun hn => by cases hn
  simp only [Channel.relayStep, hrun, Bool.not_true, Bool.false_eq_true, if_false]
  cases ch.relay.aborted with
  | true => rfl
  | false =>
    generalize ch.output.receiveAll = found at hne ⊢
    obtain ⟨found, output⟩ := found
    cases found with
    | nothing => exact (hne rfl).elim
    | failed => rfl
    | data b =>
      dsimp only
      cases (ch.splitter.read b).next <;> rfl
    | finished =>
      dsimp only
      rcases ch.splitter.finish with e | line | line <;> rfl

/-- A turn of the relay behind the end of the output: it takes what is there, or it stops. -/
theorem turn (h : Tells x ch) (he : x.ended = true) (hp : ch.relay.phase = .running) :
    (ch.step (.task .relay)).relay = ch.relay.stop ∨
      ch.output.unread ≠ [] ∧ (ch.step (.task .relay)).relay = ch.relay ∧
        (ch.step (.task .relay)).output.unread = [] := by
  have hended := (h.heard (by rw [hp]; nofun)).2.2.trans he
  obtain ⟨ch', hs⟩ := Option.isSome_iff_exists.1 (isSome_relayStep hp hended)
  have hstep : ch.step (.task .relay) = ch' := by simp [Channel.step, taskStep, hs]
  rw [hstep]
  cases relayStep_move hs with
  | stop => exact .inl rfl
  | read _ _ hb =>
    by_cases hu : ch.output.unread = []
    · have hrec := Stream.receivesAll hu
      rw [hb] at hrec
      generalize ch.output.receiveAll.2 = output at hrec
      cases hrec with
      | data hne hsplit => simp [hu, hne] at hsplit
    · exact .inr ⟨hu, rfl, by rw [Stream.receiveAll_data hu]⟩

theorem stopped_step (hp : ch.relay.phase = .stopped) : ch.step (.task .relay) = ch := by
  simp [Channel.step, taskStep, Channel.relayStep, Task.isRunning, hp]

/-- Two turns behind the end of the output are enough. -/
theorem turns (h : Tells x ch) (hr : ch.Relays) (he : x.ended = true)
    (hs : ch.relay.isStarted = true) :
    (ch.run [.task .relay, .task .relay]).relay = ch.relay.stop := by
  change ((ch.step (.task .relay)).step (.task .relay)).relay = ch.relay.stop
  cases hp : ch.relay.phase with
  | absent => simp [Task.isStarted, hp] at hs
  | stopped =>
    rw [stopped_step hp, stopped_step hp, Task.stop, ← hp]
  | running =>
    rcases h.turn he hp with hstop | ⟨-, hrelay, hu⟩
    · rw [stopped_step (by rw [hstop]; rfl), hstop]
    · have hnext : Tells x (ch.step (.task .relay)) :=
        h.step (a := .task .relay) hr fun hn => by cases hn
      rcases hnext.turn he (by rw [hrelay, hp]) with hstop | ⟨hne, -⟩
      · rw [hstop, hrelay]
      · exact (hne hu).elim

end Tells

/-- However the worker's output comes in pieces, and whatever else happens to the channel: the lines
that the console was given are the first ones of the whole output. A console relay that was started
and not told to stop has given it all of them once it stopped, and two turns behind the end of the
output it has. -/
theorem console_lines {m : Machine} {faults : Faults} {config : Config} {fresh : SessionId}
    {port : UInt16} {shape : Json.Shape} (h : create m faults config fresh port shape = .ok ch)
    (ha : as.filter Action.isOutput = chunks.map .print ++ [.endOutput .finished]) :
    (ch.run as).lines <+: linesOf chunks.flatten ∧
      ((ch.run as).relay.isStarted = true → (ch.run as).relay.aborted = false →
        ((ch.run as).relay.isRunning = false → (ch.run as).lines = linesOf chunks.flatten) ∧
        (ch.run (as ++ [.task .relay, .task .relay])).relay.isRunning = false ∧
        (ch.run (as ++ [.task .relay, .task .relay])).lines = linesOf chunks.flatten) := by
  have hreset : .endOutput .reset ∉ as := fun hm => by
    have hf : .endOutput .reset ∈ as.filter Action.isOutput := List.mem_filter.2 ⟨hm, rfl⟩
    rw [ha] at hf
    simp at hf
  have hrelays := (Relays.of_create h).run as
  have htells := (Tells.of_create h).run (Relays.of_create h) hreset
  rw [Printed.foldl_after {} rfl ha] at htells
  have stopped {ch' : Channel} (ht : Tells ⟨[] ++ chunks.flatten, true⟩ ch')
      (hp : ch'.relay.phase = .stopped) (hab : ch'.relay.aborted = false) :
      ch'.lines = linesOf chunks.flatten := by
    have hall := ht.all hp hab [] fun _ => rfl
    rwa [List.append_nil, List.nil_append] at hall
  refine ⟨?_, fun hs hab => ⟨fun hrun => ?_, ?_⟩⟩
  · have hfirst := htells.first [] fun _ => rfl
    rwa [List.append_nil, List.nil_append] at hfirst
  · refine stopped htells ?_ hab
    cases hp : (ch.run as).relay.phase with
    | absent => simp [Task.isStarted, hp] at hs
    | running => simp [Task.isRunning, hp] at hrun
    | stopped => rfl
  · have hturns := htells.turns hrelays rfl hs
    have hno : Action.endOutput .reset ∉ [Action.task .relay, .task .relay] := by simp
    have hnext := htells.run hrelays hno
    have hrun : ch.run (as ++ [.task .relay, .task .relay]) =
        (ch.run as).run [.task .relay, .task .relay] := List.foldl_append
    rw [hrun]
    exact ⟨by rw [hturns]; rfl, stopped hnext (by rw [hturns]; rfl) (by rw [hturns]; exact hab)⟩

/-! ## A run -/

/-- Two pieces, cut inside the end of the first line. -/
def exampleChunks : List Bytes := [[97, 13], [10, 10, 98]]

/-- The relay starts behind the first piece, and takes it before the second one comes. -/
def exampleOutput : List Action :=
  [.print [97, 13], .begin (.bindEvents true), .call 0, .call 0, .call 0, .call 0, .call 0,
    .task .relay, .print [10, 10, 98], .endOutput .finished]

theorem console_lines_of_exampleOutput :
    (exampleStart.run exampleOutput).lines = [] ∧
      (exampleStart.run (exampleOutput ++ [.task .relay, .task .relay])).lines =
        linesOf exampleChunks.flatten ∧
      linesOf exampleChunks.flatten = ["a", "", "b"] :=
  ⟨by decide +kernel, ((@console_lines _ exampleOutput exampleChunks _ _ _ _ _ _
    create_exampleStart rfl).2 (by decide +kernel) (by decide +kernel)).2.2, by decide +kernel⟩

end Channel

end WorkerLink
