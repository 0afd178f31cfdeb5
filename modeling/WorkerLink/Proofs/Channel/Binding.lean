import WorkerLink.Proofs.Channel.Invariant

/-!
# A step of binding the streams, and every other one

Whoever binds the streams, verification or a call, takes the same steps, and nobody else does at the
same time (`Binds`). Any other action leaves them where they are, or opens the gate
(`Move.bystander`).
-/

namespace WorkerLink.Channel

variable {ch ch' : Channel} {a : Action} {w w' : Wiring}

/-- The point of binding the streams at which an action goes on. -/
def binds? (ch : Channel) : Action → Option Wiring
  | .task .verifier => ch.verifier.wiring?
  | .call i => ch.calls[i]?.bind Call.wiring?
  | _ => none

/-- A step of binding the streams; only its point and who takes it are changed besides. -/
inductive Binds (ch : Channel) (w : Wiring) : Channel → Prop where
  | step {w' : Wiring} {ch' : Channel} {v : Verifier} {cs : List Call}
    (m : WiringMove ch w ch' w') (hw : ch.wirings = [w]) (hg : ch.gate.remaining = 0)
    (hne : w ≠ .finished) (hat : ch.At w)
    (hw' : v.wiring?.toList ++ cs.filterMap Call.wiring? = if w' = .finished then [] else [w'])
    (hv : v.isRecorded = true)
    (hcs : ∀ p : Call → Bool, (∀ w, p (.wire w) = false) → (∀ r, p (.returned r) = false) →
      cs.countP p = ch.calls.countP p) :
    Binds ch w { ch' with verifier := v, calls := cs }

theorem VerifierMove.binds (m : VerifierMove ch ch') (h : ch.Gathers)
    (hv : ch.verifier = .wiring w) : Binds ch w ch' := by
  obtain ⟨hws, hg, hne, hat⟩ := h.wired.of_mem (mem_wirings_of_verifier hv)
  have hcalls : ch.calls.filterMap Call.wiring? = [] := by
    simpa [wirings, hv, Verifier.wiring?] using hws
  cases m with
  | @wire w₀ w' ch' hv' m hn =>
    rw [hv] at hv'
    cases hv'
    have hc := m.accepting.2.2.1
    refine @Binds.step ch w w' ch' (.wiring w') ch'.calls m hws hg hne hat ?_ rfl
      fun p _ _ => by rw [hc]
    rw [if_neg hn, hc, hcalls]
    rfl
  | @wired w₀ ch' hv' m =>
    rw [hv] at hv'
    cases hv'
    have hc := m.accepting.2.2.1
    refine @Binds.step ch w .finished ch' .finished ch'.calls m hws hg hne hat ?_ rfl
      fun p _ _ => by rw [hc]
    rw [if_pos rfl, hc, hcalls]
    rfl
  | begin hv' | blind hv' | read hv' | complete hv' | ended hv' | broke hv' | judge hv'
  | publish hv' | record hv' | opens hv' | arrives hv' | surplus hv' =>
    rw [hv] at hv'
    cases hv'

theorem CallMove.binds {i : Nat} {c' : Call} (m : CallMove ch (.wire w) ch' c')
    (hi : ch.calls[i]? = some (.wire w)) (h : ch.Gathers) :
    Binds ch w { ch' with calls := ch'.calls.set i c' } := by
  obtain ⟨hws, hg, hne, hat⟩ := h.wired.of_mem (mem_wirings_of_call hi)
  obtain ⟨before, after, hold, hnew⟩ := filterMap_set_split Call.wiring? hi
  have hempty : ch.verifier.wiring?.toList ++ before = [] ∧ after = [] := by
    have hws' : ch.wirings = ch.verifier.wiring?.toList ++ before ++ [w] ++ after := by
      simp [wirings, hold, Call.wiring?]
    exact Wired.single (hws' ▸ h.wired)
  have hr := h.isRecorded hg
  have counts (c' : Call) (p : Call → Bool) (hp : p (.wire w) = false) (hp' : p c' = false) :
      (ch.calls.set i c').countP p = ch.calls.countP p := by
    have hn := countP_set_add p hi c'
    simp only [hp, hp', Bool.toNat_false, Nat.add_zero] at hn
    exact hn
  cases m with
  | wire m hn =>
    rename_i w'
    obtain ⟨-, -, hc, -, -, -, -, hv⟩ := m.accepting
    have hb := @Binds.step ch w w' ch' ch.verifier (ch.calls.set i (.wire w')) m hws hg
      hne hat
      (by
        rw [if_neg hn, hnew, ← List.append_assoc, ← List.append_assoc, hempty.1, hempty.2]
        rfl)
      hr fun p hp _ => counts _ p (hp w) (hp w')
    rw [← hv, ← hc] at hb
    exact hb
  | wired m =>
    obtain ⟨-, -, hc, -, -, -, -, hv⟩ := m.accepting
    have hb := @Binds.step ch w .finished ch' ch.verifier (ch.calls.set i (.returned (.ok ()))) m
      hws hg hne hat
      (by
        rw [if_pos rfl, hnew, ← List.append_assoc, ← List.append_assoc, hempty.1, hempty.2]
        rfl)
      hr fun p hp hp' => counts _ p (hp w) (hp' _)
    rw [← hv, ← hc] at hb
    exact hb

theorem Move.binds (m : Move ch a ch') (h : ch.Gathers) (hb : ch.binds? a = some w) :
    Binds ch w ch' := by
  cases m with
  | verifier m =>
    refine m.binds h ?_
    cases hv : ch.verifier <;> simp_all [binds?, Verifier.wiring?]
  | @call i c c' ch' hi m =>
    simp only [binds?, hi, Option.bind_some] at hb
    obtain rfl := Call.eq_wire hb
    exact m.binds hi h
  | client ha => cases a <;> first | cases hb | cases ha
  | _ => cases hb

/-- As long as the channel is open, nobody who binds the streams gives up. -/
theorem Open.ne_abort (h : ch.Open) (hw : ch.wirings = [w]) : w ≠ .abort := by
  rintro rfl
  have hm : .abort ∈ ch.wirings := hw ▸ List.mem_singleton_self _
  rcases List.mem_append.1 hm with hm | hm
  · refine h.verifier ?_
    cases hv : ch.verifier <;> simp_all [Verifier.wiring?]
  · obtain ⟨c, hc, hcw⟩ := List.mem_filterMap.1 hm
    have hcl := h.calls c hc
    rw [Call.eq_wire hcw] at hcl
    cases hcl

/-! ## Every other action -/

/-- What an action that does not bind the streams does to those that do: it opens the gate, or
leaves them alone. -/
inductive Leaves (ch ch' : Channel) : Prop where
  | same (hw : ch'.wirings = ch.wirings) (hg : ch'.gate.remaining = 0 ↔ ch.gate.remaining = 0)
  | opens (hg : ch.gate.remaining = 1) (hg' : ch'.gate.remaining = 0) (hw : ch.wirings = [])
    (hw' : ch'.wirings = [.start])

theorem AcceptorMove.wirings_eq (m : AcceptorMove ch ch') (hc : ch.Accepts) :
    ch'.wirings = ch.wirings := by
  have hclaim := hc.claim
  cases m with
  | verify ha | verifyBlind ha =>
    rw [ha] at hclaim
    simp [wirings, hclaim.verify.2.2, Verifier.wiring?, openDescriptor]
  | _ => rfl

theorem VerifierMove.leaves (m : VerifierMove ch ch') (h : ch.Gathers)
    (hw : ch.verifier.wiring? = none) : Leaves ch ch' := by
  have same (hw' : ch'.verifier.wiring? = none)
      (hg : ch'.gate.remaining = 0 ↔ ch.gate.remaining = 0) : Leaves ch ch' :=
    .same (by rw [wirings, wirings, hw, hw', m.calls_eq]) hg
  cases m with
  | opens hv hg =>
    have hws := (h.wired.before (by omega)).1
    refine .opens hg rfl hws ?_
    simp only [wirings, List.append_eq_nil_iff] at hws
    simp only [wirings, hws.2, Verifier.wiring?]
    rfl
  | arrives hv hg => exact same rfl (by simp [hg])
  | wire hv | wired hv =>
    rw [hv] at hw
    cases hw
  | _ => exact same rfl .rfl

theorem CallMove.leaves {i : Nat} {c c' : Call} (m : CallMove ch c ch' c')
    (hi : ch.calls[i]? = some c) (h : ch.Gathers) (hw : c.wiring? = none) :
    Leaves ch { ch' with calls := ch'.calls.set i c' } := by
  obtain ⟨before, after, hold, hnew⟩ := filterMap_set_split Call.wiring? hi
  have hws : wirings { ch' with calls := ch'.calls.set i c' } =
      ch.verifier.wiring?.toList ++ (before ++ c'.wiring?.toList ++ after) := by
    rw [wirings, m.calls_eq, m.outcome_eq.1, hnew]
  have same (hw' : c'.wiring? = none) (hg : ch'.gate.remaining = 0 ↔ ch.gate.remaining = 0) :
      Leaves ch { ch' with calls := ch'.calls.set i c' } := by
    refine .same ?_ hg
    rw [hws, wirings, hold, hw, hw']
  cases m with
  | opens hg =>
    have hnil := (h.wired.before (by omega)).1
    refine .opens hg rfl hnil ?_
    rw [hws]
    simp only [wirings, hold, List.append_eq_nil_iff] at hnil
    simp [hnil.1, hnil.2.1.1, hnil.2.2, Call.wiring?]
  | arrives hg => exact same rfl (by simp [hg])
  | wire | wired => cases hw
  | _ => exact same rfl .rfl

/-- An action that does not bind the streams leaves alone what was done for them. -/
theorem Move.bystander (m : Move ch a ch') (h : ch.Gathers) (hc : ch.Accepts)
    (hb : ch.binds? a = none) : Extends ch ch' ∧ Leaves ch ch' := by
  cases m with
  | acceptor m =>
    refine ⟨m.extends, .same (m.wirings_eq hc) ?_⟩
    cases m <;> exact .rfl
  | verifier m => exact ⟨m.extends h.shows hb, m.leaves h hb⟩
  | consumer m =>
    refine ⟨m.extends, ?_⟩
    cases m <;> exact .same rfl .rfl
  | producer m =>
    refine ⟨m.extends, ?_⟩
    cases m <;> exact .same rfl .rfl
  | relay m =>
    refine ⟨m.extends, ?_⟩
    cases m <;> exact .same rfl .rfl
  | @begin r =>
    have hr : r.call.wiring? = none := by cases r <;> rfl
    refine ⟨⟨rfl, fun _ => id, id, id, id, id, fun _ => id⟩, .same ?_ .rfl⟩
    simp [wirings, hr]
  | @call i c c' ch' hi m =>
    simp only [binds?, hi, Option.bind_some] at hb
    exact ⟨m.extends hb, m.leaves hi h hb⟩
  | _ => exact ⟨⟨rfl, fun _ => id, id, id, id, id, fun _ => id⟩, .same rfl .rfl⟩

theorem Move.binds_eq_none (m : Move ch a ch') (h : ch.Gathers) (hw : ch.wirings = []) :
    ch.binds? a = none := by
  cases hb : ch.binds? a with
  | none => rfl
  | some w =>
    cases m.binds h hb with
    | step _ hw' =>
      rw [hw] at hw'
      cases hw'

/-- Behind an open gate the streams are bound once, and not again. -/
theorem Move.stays_unwired (m : Move ch a ch') (h : ch.Gathers) (hc : ch.Accepts)
    (hg : ch.gate.remaining = 0) (hw : ch.wirings = []) :
    ch'.gate.remaining = 0 ∧ ch'.wirings = [] ∧ ch'.streams = ch.streams := by
  obtain ⟨extends', leaves⟩ := m.bystander h hc (m.binds_eq_none h hw)
  cases leaves with
  | same hw' hg' => exact ⟨hg'.2 hg, hw'.trans hw, extends'.streams⟩
  | opens hg' =>
    rw [hg] at hg'
    cases hg'

/-- Behind an open gate, with nobody left to bind the streams, they stay what they are. -/
theorem Inv.unwired_run (h : ch.Inv) (hg : ch.gate.remaining = 0) (hw : ch.wirings = [])
    (as : List Action) : (ch.run as).wirings = [] ∧ (ch.run as).streams = ch.streams := by
  refine (run_keeps (P := fun y => (y.Inv ∧ y.gate.remaining = 0) ∧ y.wirings = [] ∧
    y.streams = ch.streams) ?_ ⟨⟨h, hg⟩, hw, rfl⟩ as).2
  intro y a y' ⟨⟨hi, hg⟩, hw, hs⟩ m
  obtain ⟨hg', hw', hs'⟩ := m.stays_unwired hi.gathers hi.accepts hg hw
  exact ⟨⟨hi.keeps m, hg'⟩, hw', hs'.trans hs⟩

end WorkerLink.Channel
