import WorkerLink.Proofs.Channel.Admission
import WorkerLink.Proofs.Channel.Binding

/-!
# The arrival that opens the gate

Verification arrives at the gate once its outcome is recorded, and so does each call that has
registered something. The last of them opens the gate and finds that nothing is missing
(`opener_finds_all`).
-/

namespace WorkerLink

/-- The records about the gate and about binding the streams that tell of something missing. -/
def gateRecords : List LogRecord :=
  [.warn Gate.surplusWarning, .error "Readiness gate opened without worker socket or bindings",
    .error "Failed to open worker socket for streams"]

namespace Channel

variable {ch ch' : Channel} {a : Action} {w w' : Wiring} {r : LogRecord}

/-- What an action finds at the gate if it is an arrival. -/
def arrival? (ch : Channel) : Action → Option Gate.Arrival
  | .task .verifier => if ch.verifier = .arriving then some ch.gate.arrive.1 else none
  | .call i =>
    match ch.calls[i]? with
    | some .arrive => some ch.gate.arrive.1
    | _ => none
  | _ => none

/-- What the arrivals of a run find at the gate, in order. -/
def gateArrivals (ch : Channel) : List Action → List Gate.Arrival
  | [] => []
  | a :: as => (ch.arrival? a).toList ++ (ch.step a).gateArrivals as

/-- The points of binding the streams that a run comes by, in order. -/
def wiringSteps (ch : Channel) : List Action → List Wiring
  | [] => []
  | a :: as => (ch.binds? a).toList ++ (ch.step a).wiringSteps as

/-- An action that is not possible neither arrives at the gate nor binds the streams. -/
theorem step_quiet_or_move (ch : Channel) (a : Action) :
    (ch.step a = ch ∧ ch.arrival? a = none ∧ ch.binds? a = none) ∨ Move ch a (ch.step a) := by
  rcases ch.step_cases a with hs | hm
  · cases a with
    | task actor =>
      cases h : ch.taskStep actor with
      | some ch' => exact .inr (by simpa [step, h] using taskStep_move h)
      | none =>
        refine .inl ⟨hs, ?_⟩
        cases actor with
        | verifier =>
          have hv : ch.verifierStep = none := h
          cases hx : ch.verifier with
          | arriving | wiring => simp [verifierStep, hx] at hv
          | _ => simp [arrival?, binds?, hx, Verifier.wiring?]
        | _ => exact ⟨rfl, rfl⟩
    | call i =>
      cases h : ch.calls[i]? with
      | none => exact .inl ⟨hs, by simp [arrival?, h], by simp [binds?, h]⟩
      | some c =>
        right
        simpa only [step, stepCall, h] using Move.call h (ch.callStep_move c)
    | _ => exact .inl ⟨hs, rfl, rfl⟩
  · exact .inr hm

/-! ## Arriving -/

/-- How the gate and the arrivals at it belong together: what an arrival finds is what the gate
says, and nothing else moves the gate. -/
theorem Move.gate (m : Move ch a ch') :
    (ch.arrival? a = none ∧ ch'.gate = ch.gate) ∨
      (ch.arrival? a = some ch.gate.arrive.1 ∧ 0 < ch.due ∧ ch'.gate = ch.gate.arrive.2) := by
  cases m with
  | acceptor m => cases m <;> exact .inl ⟨rfl, rfl⟩
  | verifier m =>
    cases m with
    | opens hv hg | arrives hv hg | surplus hv hg =>
      refine .inr ⟨by simp [arrival?, hv], due_pos_of_arriving hv, ?_⟩
      simp [Gate.arrive, hg, warn]
    | wire hv m | wired hv m => exact .inl ⟨by simp [arrival?, hv], m.gate_eq⟩
    | begin hv | blind hv | read hv | complete hv | ended hv | broke hv | judge hv | publish hv
    | record hv => exact .inl ⟨by simp [arrival?, hv], rfl⟩
  | consumer m => cases m <;> exact .inl ⟨rfl, rfl⟩
  | producer m => cases m <;> exact .inl ⟨rfl, rfl⟩
  | relay m => cases m <;> exact .inl ⟨rfl, rfl⟩
  | call hi m =>
    cases m with
    | opens hg | arrives hg | surplus hg =>
      refine .inr ⟨by simp [arrival?, hi], due_pos_of_call hi rfl, ?_⟩
      simp [Gate.arrive, hg, warn]
    | wire m | wired m => exact .inl ⟨by simp [arrival?, hi], m.gate_eq⟩
    | _ => exact .inl ⟨by simp [arrival?, hi], rfl⟩
  | client ha =>
    refine .inl ⟨?_, rfl⟩
    cases a <;> first | rfl | cases ha
  | _ => exact .inl ⟨rfl, rfl⟩

/-- Whoever is still to arrive finds the gate shut. -/
theorem Gathers.shut_of_due (h : ch.Gathers) (hd : 0 < ch.due) : 0 < ch.gate.remaining := by
  by_contra hg
  have hdue := (all_signals h.signals (by omega)).1
  omega

/-- When only one arrival is missing, and is on its way, all three signals are there. -/
theorem Gathers.all_of_last (h : ch.Gathers) (hd : 0 < ch.due) (hg : ch.gate.remaining = 1) :
    ch.authentication.isSome = true ∧ ch.commands.isSome = true ∧ ch.handler = true := by
  have ha := ch.authentication.isSome.toNat_le
  have hc := ch.commands.isSome.toNat_le
  have hh := ch.handler.toNat_le
  -- one signal is missing at the gate and one that is there is not counted yet: none is missing
  have hs := h.signals
  simp only [Channel.signals, readinessSignals, hg] at hs
  refine ⟨?_, ?_, ?_⟩ <;> rw [← Bool.toNat_eq_one] <;> omega

/-- An outcome is recorded only for a connection in the worker slot. -/
theorem Inv.slot_of_recorded (h : ch.Inv) (ha : ch.authentication.isSome = true) :
    ch.slot.isSome = true := by
  obtain ⟨o, ho⟩ := Option.isSome_iff_exists.1 ha
  have hs := h.gathers.shows
  rw [ho] at hs
  have hv : ch.verifier ≠ .absent := by
    intro hv
    have hr := hs.isRecorded
    rw [hv] at hr
    cases hr
  obtain ⟨l, hl⟩ := h.accepts.claim.isSome hv
  rw [hl]
  rfl

/-- An arrival finds the gate shut, and opens it when it is the last one. -/
theorem Move.arrival (m : Move ch a ch') (h : ch.Gathers) :
    (ch.arrival? a = none ∧ ch'.gate.remaining = ch.gate.remaining) ∨
      (ch.arrival? a = some .opened ∧ 0 < ch.due ∧ ch.gate.remaining = 1 ∧
        ch'.gate.remaining = 0) ∨
      (ch.arrival? a = some .waited ∧ ch.gate.remaining = ch'.gate.remaining + 1 ∧
        0 < ch'.gate.remaining) := by
  rcases m.gate with ⟨ha, hg⟩ | ⟨ha, hd, hg⟩
  · exact .inl ⟨ha, by rw [hg]⟩
  · right
    have hpos := h.shut_of_due hd
    rw [ha, hg]
    unfold Gate.arrive
    match hr : ch.gate.remaining with
    | 0 => omega
    | 1 => exact .inl ⟨rfl, hd, rfl, rfl⟩
    | n + 2 => exact .inr ⟨rfl, rfl, Nat.succ_pos n⟩

theorem Inv.step_arrival (h : ch.Inv) (a : Action) :
    (ch.arrival? a).toList.count .opened + (decide (ch.gate.remaining = 0)).toNat =
        (decide ((ch.step a).gate.remaining = 0)).toNat ∧
      .surplus ∉ (ch.arrival? a).toList := by
  rcases ch.step_quiet_or_move a with ⟨hs, ha, -⟩ | m
  · rw [hs, ha]
    exact ⟨Nat.zero_add _, List.not_mem_nil⟩
  · rcases m.arrival h.gathers with ⟨ha, hg⟩ | ⟨ha, -, hg, hg'⟩ | ⟨ha, hg, hg'⟩
    · rw [ha, hg]
      exact ⟨Nat.zero_add _, List.not_mem_nil⟩
    · rw [ha, hg, hg']
      exact ⟨rfl, by decide⟩
    · rw [ha, decide_eq_false (by omega), decide_eq_false (by omega)]
      exact ⟨rfl, by decide⟩

/-- The gate is open after a run if one of its arrivals opened it, and no arrival comes later. -/
theorem Inv.run_arrivals (h : ch.Inv) (as : List Action) :
    (ch.gateArrivals as).count .opened + (decide (ch.gate.remaining = 0)).toNat =
        (decide ((ch.run as).gate.remaining = 0)).toNat ∧
      .surplus ∉ ch.gateArrivals as := by
  induction as generalizing ch with
  | nil => exact ⟨Nat.zero_add _, List.not_mem_nil⟩
  | cons a as ih =>
    obtain ⟨hn, hs⟩ := h.step_arrival a
    have h' : (ch.step a).Inv := h.run [a]
    obtain ⟨hn', hs'⟩ := ih h'
    refine ⟨?_, ?_⟩
    · have hrun : ch.run (a :: as) = (ch.step a).run as := rfl
      rw [gateArrivals, List.count_append, hrun]
      omega
    · rw [gateArrivals, List.mem_append]
      exact fun hm => hm.elim hs hs'

/-! ## Binding the streams once -/

theorem WiringMove.ne_start (m : WiringMove ch w ch' w') : w' ≠ .start := by
  cases m <;> nofun

theorem Binds.count_start (b : Binds ch w ch') :
    ch'.wirings.count .start + [w].count .start = ch.wirings.count .start ∧
      ch'.gate.remaining = ch.gate.remaining := by
  cases b with
  | @step w' ch₁ v cs m hw _ _ _ hw' =>
    refine ⟨?_, by rw [m.gate_eq]⟩
    have hn : (if w' = .finished then [] else [w']).count .start = 0 := by
      have hne := m.ne_start
      split <;> simp [hne]
    rw [wirings, hw', hw, hn, Nat.zero_add]

theorem Inv.step_wiring (h : ch.Inv) (a : Action) :
    (ch.binds? a).toList.count .start + (ch.step a).wirings.count .start +
        (decide (ch.gate.remaining = 0)).toNat =
      ch.wirings.count .start + (decide ((ch.step a).gate.remaining = 0)).toNat := by
  rcases ch.step_quiet_or_move a with ⟨hs, -, hb⟩ | m
  · rw [hs, hb]
    simp
  · cases hb : ch.binds? a with
    | some w =>
      obtain ⟨hn, hg⟩ := (m.binds h.gathers hb).count_start
      rw [hg, Option.toList_some]
      omega
    | none =>
      rw [Option.toList_none, List.count_nil]
      cases (m.bystander h.gathers h.accepts hb).2 with
      | same hw hg => simp only [hw, hg, Nat.zero_add]
      | opens hg hg' hw hw' =>
        rw [hw, hw', hg, hg']
        rfl

/-- Binding the streams is begun once, and only behind an open gate. -/
theorem Inv.run_wiring (h : ch.Inv) (as : List Action) :
    (ch.wiringSteps as).count .start + (ch.run as).wirings.count .start +
        (decide (ch.gate.remaining = 0)).toNat =
      ch.wirings.count .start + (decide ((ch.run as).gate.remaining = 0)).toNat := by
  induction as generalizing ch with
  | nil =>
    rw [wiringSteps, List.count_nil, Nat.zero_add]
    rfl
  | cons a as ih =>
    have hn := h.step_wiring a
    have h' : (ch.step a).Inv := h.run [a]
    have hn' := ih h'
    have hrun : ch.run (a :: as) = (ch.step a).run as := rfl
    rw [wiringSteps, List.count_append, hrun]
    omega

/-! ## What is logged -/

/-- Where a record that is new in the log comes from. -/
inductive Logs (ch : Channel) (a : Action) : LogRecord → Prop where
  | surplus (h : ch.arrival? a = some .surplus) : Logs ch a (.warn Gate.surplusWarning)
  | incomplete (hb : ch.binds? a = some .gather)
      (h : (ch.slot.isSome && ch.commands.isSome && ch.handler) = false) :
    Logs ch a (.error "Readiness gate opened without worker socket or bindings")
  | unconnected (hb : ch.binds? a = some .connect) :
    Logs ch a (.error "Failed to open worker socket for streams")
  | other {r : LogRecord} (h : r ∉ gateRecords) : Logs ch a r

theorem mem_concat_cases {r x : LogRecord} {log : List LogRecord} (h : r ∈ log ++ [x]) :
    r ∈ log ∨ r = x := by
  simpa using h

theorem WiringMove.logs (m : WiringMove ch w ch' w') (hb : ch.binds? a = some w)
    (hr : r ∈ ch'.log) : r ∈ ch.log ∨ Logs ch a r := by
  cases m with
  | unverified =>
    refine (mem_concat_cases hr).imp_right ?_
    rintro rfl
    exact .other (by decide)
  | incomplete h =>
    refine (mem_concat_cases hr).imp_right ?_
    rintro rfl
    exact .incomplete hb h
  | unconnected =>
    refine (mem_concat_cases hr).imp_right ?_
    rintro rfl
    exact .unconnected hb
  | _ => exact .inl hr

theorem Move.logs (m : Move ch a ch') (hr : r ∈ ch'.log) : r ∈ ch.log ∨ Logs ch a r := by
  have new {x : LogRecord} (hx : x ∉ gateRecords) (h : r ∈ ch.log ++ [x]) :
      r ∈ ch.log ∨ Logs ch a r := by
    refine (mem_concat_cases h).imp_right ?_
    rintro rfl
    exact .other hx
  cases m with
  | acceptor m =>
    cases m with
    | refuse | giveUp | turnAway => exact new (by decide) hr
    | _ => exact .inl hr
  | verifier m =>
    cases m with
    | blind | broke => exact new (by decide) hr
    | publish =>
      dsimp only at hr
      split at hr
      · exact .inl hr
      · exact new (by decide) hr
    | surplus hv hg =>
      refine (mem_concat_cases hr).imp_right ?_
      rintro rfl
      exact .surplus (by simp [arrival?, hv, Gate.arrive, hg])
    | wire hv m | wired hv m => exact m.logs (by simp [binds?, hv, Verifier.wiring?]) hr
    | _ => exact .inl hr
  | consumer m =>
    cases m with
    | failed => exact new (by decide) hr
    | _ => exact .inl hr
  | producer m =>
    cases m with
    | refused | unwritable => exact new (by decide) hr
    | _ => exact .inl hr
  | relay m =>
    cases m with
    | read => exact .inl hr
    | stop _ _ hm =>
      rcases hm with rfl | rfl
      · rw [List.append_nil] at hr
        exact .inl hr
      · exact new (by decide) hr
  | call hi m =>
    cases m with
    | surplus hg =>
      refine (mem_concat_cases hr).imp_right ?_
      rintro rfl
      exact .surplus (by simp [arrival?, hi, Gate.arrive, hg])
    | wire m | wired m => exact m.logs (by simp [binds?, hi, Call.wiring?]) hr
    | giveBack =>
      dsimp only at hr
      split at hr
      · exact new (by decide) hr
      · exact .inl hr
    | _ => exact .inl hr
  | _ => exact .inl hr

/-- Whoever gathers what the streams need finds it. -/
theorem Inv.gathers_all (h : ch.Inv) (m : Move ch a ch') (hb : ch.binds? a = some w) :
    (ch.slot.isSome && ch.commands.isSome && ch.handler) = true := by
  cases m.binds h.gathers hb with
  | step _ _ hg =>
    obtain ⟨-, ha, hc, hh⟩ := all_signals h.gathers.signals hg
    rw [h.slot_of_recorded ha, hc, hh]
    rfl

/-- Nothing in the log tells of an arrival at an open gate, or of a gate that opened although
something was missing. -/
def GateSound (ch : Channel) : Prop :=
  .warn Gate.surplusWarning ∉ ch.log ∧
    .error "Readiness gate opened without worker socket or bindings" ∉ ch.log

theorem Logs.arrival (h : Logs ch a (.warn Gate.surplusWarning)) :
    ch.arrival? a = some .surplus := by
  generalize he : LogRecord.warn Gate.surplusWarning = r at h
  cases h with
  | surplus ha => exact ha
  | incomplete | unconnected => cases he
  | other hn => exact (hn (he ▸ by decide)).elim

theorem Logs.gathering
    (h : Logs ch a (.error "Readiness gate opened without worker socket or bindings")) :
    ch.binds? a = some .gather ∧
      (ch.slot.isSome && ch.commands.isSome && ch.handler) = false := by
  generalize he :
    LogRecord.error "Readiness gate opened without worker socket or bindings" = r at h
  cases h with
  | surplus => cases he
  | incomplete hb hn => exact ⟨hb, hn⟩
  | unconnected => simp [LogRecord.error] at he
  | other hn => exact (hn (he ▸ by decide)).elim

theorem GateSound.keeps (h : ch.GateSound) (hi : ch.Inv) (m : Move ch a ch') : ch'.GateSound := by
  refine ⟨fun hr => ?_, fun hr => ?_⟩
  · rcases m.logs hr with hr | hl
    · exact h.1 hr
    · have ha := hl.arrival
      rcases m.arrival hi.gathers with ⟨hn, -⟩ | ⟨hn, -⟩ | ⟨hn, -⟩ <;> rw [hn] at ha <;> cases ha
  · rcases m.logs hr with hr | hl
    · exact h.2 hr
    · obtain ⟨hb, hn⟩ := hl.gathering
      rw [hi.gathers_all m hb] at hn
      cases hn

/-- In every run, no arrival finds the gate open, at most one opens it, and the streams are bound at
most once. The arrival that opens the gate finds the outcome of verification recorded, a connection
in the worker slot, a command source and an event handler; so nothing is ever missing when the
streams are bound. -/
theorem opener_finds_all {m : Machine} {faults : Faults} {config : Config} {fresh : SessionId}
    {port : UInt16} {shape : Json.Shape} {start : Channel}
    (hstart : create m faults config fresh port shape = .ok start) (actions : List Action) :
    let ch := start.run actions
    (start.gateArrivals actions).count .opened ≤ 1 ∧
      .surplus ∉ start.gateArrivals actions ∧
      (start.wiringSteps actions).count .start ≤ 1 ∧
      (∀ a, ch.arrival? a = some .opened → ch.authentication.isSome = true ∧
        ch.slot.isSome = true ∧ ch.commands.isSome = true ∧ ch.handler = true) ∧
      .warn Gate.surplusWarning ∉ ch.log ∧
      .error "Readiness gate opened without worker socket or bindings" ∉ ch.log := by
  intro ch
  have hi := Inv.of_create hstart
  have h : ch.Inv := hi.run actions
  obtain ⟨hcount, hsurplus⟩ := hi.run_arrivals actions
  have hwiring := hi.run_wiring actions
  have hle := (decide ((start.run actions).gate.remaining = 0)).toNat_le
  obtain ⟨hunwired, hlog⟩ : start.wirings = [] ∧ start.log = [] := by
    obtain ⟨descriptor, codec, rfl⟩ := create_eq hstart
    exact ⟨rfl, rfl⟩
  have hsound : ch.Inv ∧ ch.GateSound :=
    run_keeps (P := fun ch => ch.Inv ∧ ch.GateSound) (fun h m => ⟨h.1.keeps m, h.2.keeps h.1 m⟩)
      ⟨hi, by simp [GateSound, hlog]⟩ actions
  rw [hunwired, List.count_nil] at hwiring
  refine ⟨by omega, hsurplus, by omega, fun a ha => ?_, hsound.2⟩
  rcases ch.step_quiet_or_move a with ⟨-, hn, -⟩ | m
  · rw [hn] at ha
    cases ha
  · rcases m.arrival h.gathers with ⟨hn, -⟩ | ⟨-, hd, hg, -⟩ | ⟨hn, -⟩
    · rw [hn] at ha
      cases ha
    · obtain ⟨hrec, hc, hh⟩ := h.gathers.all_of_last hd hg
      exact ⟨hrec, h.slot_of_recorded hrec, hc, hh⟩
    · rw [hn] at ha
      cases ha

theorem opener_finds_all_of_exampleRun :
    exampleStart.gateArrivals exampleRun = [.waited, .waited, .opened] ∧
      (exampleStart.gateArrivals exampleRun).count .opened ≤ 1 ∧
      (exampleStart.wiringSteps exampleRun).count .start ≤ 1 := by
  obtain ⟨harrivals, -, hwiring, -⟩ := opener_finds_all create_exampleStart exampleRun
  exact ⟨by decide +kernel, harrivals, hwiring⟩

end Channel

end WorkerLink
