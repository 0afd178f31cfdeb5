import Mathlib.Logic.Function.Basic
import WorkerLink.Script.Pieces

/-!
# Threads at a gate

Threads come to one gate in whatever order they get their turns. An arrival is one turn, in which
the number of those missing is read and lowered in one piece; the action that a call has brought
along is started in a later turn of the same thread, and any number of other arrivals may come in
between. What an arrival finds depends on how many have come before it and on nothing else
(`finding`), and the threads are told what a script of their arrivals would be told
(`Run.answers_eq`). So whoever comes, one arrival opens the gate, and only its own action is ever
started, once nobody is missing any more (`opens_once`).
-/

namespace WorkerLink.Gate

open Function (update)
open Script (GateStep runGate)

variable {α : Type} {n t : Nat} {a : α}

/-- A call that arrives at a gate. -/
inductive Call (α : Type) where
  | arrive
  /-- With an action to run if this arrival opens the gate. -/
  | arriveThen (action : α)
  deriving DecidableEq, Repr

/-- The action that a call has brought along. -/
def Call.action? : Call α → Option α
  | .arrive => none
  | .arriveThen a => some a

/-- The step of a script that is such a call. -/
def Call.step : Call α → GateStep
  | .arrive => .arrive
  | .arriveThen _ => .arriveThen

/-- What a thread does in its turn. -/
inductive Turn (α : Type) where
  | arrive (thread : Nat) (call : Call α)
  /-- It starts the action of the call that has opened the gate. -/
  | act (thread : Nat)
  deriving DecidableEq, Repr

/-- What comes of a turn. -/
inductive Event (α : Type) where
  | arrived (thread : Nat) (call : Call α) (found : Arrival)
  | acted (thread : Nat) (action : α)
  deriving DecidableEq, Repr

/-- A gate with the threads that come to it. -/
structure Crowd (α : Type) where
  gate : Gate
  /-- For every thread the action that it is to start before it does anything else. -/
  due : Nat → Option α := fun _ => none

namespace Crowd

/-- The crowd at a new gate. -/
def start (n : Nat) : Crowd α where
  gate := ⟨n⟩

/-- The crowd behind an arrival. -/
def arrived (c : Crowd α) (t : Nat) (call : Call α) : Crowd α where
  gate := c.gate.arrive.2
  due := if c.gate.arrive.1 = .opened then update c.due t call.action? else c.due

/-- The crowd once a thread has started its action. -/
def acted (c : Crowd α) (t : Nat) : Crowd α := { c with due := update c.due t none }

/-- One turn, if it is possible. A thread whose action is due is in the middle of a call and makes
no other one; once the action is started it may arrive again, from within the action as well. -/
def turn (c : Crowd α) : Turn α → Option (Event α × Crowd α)
  | .arrive t call =>
    match c.due t with
    | some _ => none
    | none => some (.arrived t call c.gate.arrive.1, c.arrived t call)
  | .act t => (c.due t).map fun a => (.acted t a, c.acted t)

/-- The crowd after some turns; one that is not possible is passed over. -/
def after (c : Crowd α) : List (Turn α) → Crowd α
  | [] => c
  | t :: turns =>
    match c.turn t with
    | some (_, c') => c'.after turns
    | none => c.after turns

/-- What comes of some turns, in order. -/
def history (c : Crowd α) : List (Turn α) → List (Event α)
  | [] => []
  | t :: turns =>
    match c.turn t with
    | some (e, c') => e :: c'.history turns
    | none => c.history turns

end Crowd

/-- What an arrival has found. -/
def found? : Event α → Option Arrival
  | .arrived _ _ found => some found
  | .acted .. => none

/-- The step of a script that an arrival is. -/
def step? : Event α → Option GateStep
  | .arrived _ call _ => some call.step
  | .acted .. => none

/-- The thread that has opened the gate, with the action that it has brought along. -/
def promised? : Event α → Option (Nat × α)
  | .arrived t (.arriveThen a) .opened => some (t, a)
  | _ => none

/-- Whether an arrival is told that it has opened the gate, and how many actions it promises. -/
def answer? : Event α → Option (Bool × Nat)
  | .arrived t call found =>
    some (found = .opened, (promised? (.arrived t call found)).toList.length)
  | .acted .. => none

/-- The action that was started, with the thread that has started it. -/
def started? : Event α → Option (Nat × α)
  | .acted t a => some (t, a)
  | .arrived .. => none

/-- What the arrivals have found, in order. -/
def findings (h : List (Event α)) : List Arrival := h.filterMap found?

/-- The arrivals as a script. -/
def script (h : List (Event α)) : List GateStep := h.filterMap step?

/-- What the arrivals are told and promise, in order. -/
def answers (h : List (Event α)) : List (Bool × Nat) := h.filterMap answer?

/-- The actions of the arrivals that have opened the gate. -/
def promised (h : List (Event α)) : List (Nat × α) := h.filterMap promised?

/-- The actions that were started. -/
def started (h : List (Event α)) : List (Nat × α) := h.filterMap started?

/-- What is found at a gate for `n` by the arrival behind `k` others. -/
def finding (n k : Nat) : Arrival :=
  if k + 1 < n then .waited else if k + 1 = n then .opened else .surplus

/-! ## Arrivals by their number -/

theorem arrive_of_open {g : Gate} (hg : g.remaining = 0) : g.arrive = (.surplus, g) := by
  rw [arrive, hg]

theorem remaining_of_opened {g : Gate} (ho : g.arrive.1 = .opened) :
    g.arrive.2.remaining = 0 := by
  obtain ⟨r⟩ := g
  match r with
  | 1 => rfl
  | 0 | m + 2 => cases ho

/-- The arrival behind `k` others at a gate for `n`. -/
theorem arrive_eq (hn : 0 < n) (k : Nat) :
    (⟨n - k⟩ : Gate).arrive = (finding n k, ⟨n - (k + 1)⟩) := by
  unfold arrive finding
  rcases Nat.lt_trichotomy (k + 1) n with h | h | h
  · obtain ⟨m, rfl⟩ := Nat.exists_eq_add_of_lt h
    have hk : k + 1 + m + 1 - k = m + 2 := by omega
    have hk' : k + 1 + m + 1 - (k + 1) = m + 1 := by omega
    simp only [hk, hk', if_pos h]
  · subst h
    simp
  · have hk : n - k = 0 := by omega
    have hk' : n - (k + 1) = 0 := by omega
    simp only [hk, hk', if_neg (Nat.lt_asymm h), if_neg (Nat.ne_of_gt h)]

/-- Arrivals at a gate open it if it was shut and they are enough, and then once. -/
theorem arriveMany_eq (k : Nat) (g : Gate) :
    arriveMany k g =
      (if 0 < g.remaining ∧ g.remaining ≤ k then 1 else 0, ⟨g.remaining - k⟩) := by
  induction k generalizing g with
  | zero =>
    have hk : ¬(0 < g.remaining ∧ g.remaining ≤ 0) := by omega
    rw [arriveMany, if_neg hk, Nat.sub_zero]
  | succ k ih =>
    obtain ⟨r⟩ := g
    match r with
    | 0 | 1 | m + 2 => simp [arriveMany, arrive, ih]

/-! ## Events -/

variable {c c' : Crowd α} {h : List (Event α)}

theorem promised?_of_ne {call : Call α} {found : Arrival} (ho : found ≠ .opened) :
    promised? (.arrived t call found) = none := by
  cases call with
  | arrive => rfl
  | arriveThen a =>
    cases found with
    | opened => exact (ho rfl).elim
    | waited | surplus => rfl

theorem promised?_of_open {g : Gate} (hg : g.remaining = 0) {call : Call α} :
    promised? (.arrived t call g.arrive.1) = none := by
  rw [arrive_of_open hg]
  exact promised?_of_ne nofun

theorem promised_cons (e : Event α) (h : List (Event α)) :
    promised (e :: h) = (promised? e).toList ++ promised h := by
  cases hp : promised? e with
  | none => exact List.filterMap_cons_none hp
  | some x => exact List.filterMap_cons_some hp

theorem mem_promised_iff :
    (t, a) ∈ promised h ↔ .arrived t (.arriveThen a) .opened ∈ h := by
  rw [promised, List.mem_filterMap]
  constructor
  · rintro ⟨e, he, hp⟩
    cases e with
    | acted => cases hp
    | arrived t' call found =>
      by_cases ho : found = .opened
      · subst ho
        cases call with
        | arrive => cases hp
        | arriveThen a' =>
          cases hp
          exact he
      · rw [promised?_of_ne ho] at hp
        cases hp
  · exact fun he => ⟨_, he, rfl⟩

/-- A script runs the action of a call at once if the call promises it. -/
theorem ran_step (g : Gate) (t : Nat) (call : Call α) :
    (call.step.run g).ran = (promised? (.arrived t call g.arrive.1)).toList.length := by
  have hran : (call.step.run g).ran =
      if decide (g.arrive.1 = .opened) && call.step = .arriveThen then 1 else 0 := rfl
  by_cases ho : g.arrive.1 = .opened
  · rw [hran, ho]
    cases call with
    | arrive | arriveThen => rfl
  · rw [hran, promised?_of_ne ho, decide_eq_false ho]
    rfl

/-! ## Runs -/

/-- What comes of a crowd, one possible turn after the other. -/
inductive Run : Crowd α → List (Event α) → Crowd α → Prop where
  | rest (c : Crowd α) : Run c [] c
  | arrive {c c' : Crowd α} {t : Nat} {call : Call α} {h : List (Event α)} (hd : c.due t = none)
      (r : Run (c.arrived t call) h c') : Run c (.arrived t call c.gate.arrive.1 :: h) c'
  | act {c c' : Crowd α} {t : Nat} {a : α} {h : List (Event α)} (hd : c.due t = some a)
      (r : Run (c.acted t) h c') : Run c (.acted t a :: h) c'

theorem Crowd.turn_act (hd : c.due t = some a) :
    c.turn (.act t) = some (.acted t a, c.acted t) := by
  rw [turn, hd, Option.map_some]

theorem Crowd.turn_arrive (hd : c.due t = none) (call : Call α) :
    c.turn (.arrive t call) = some (.arrived t call c.gate.arrive.1, c.arrived t call) := by
  rw [turn, hd]

/-- Any turns make a run. -/
theorem Crowd.run_turns (c : Crowd α) (turns : List (Turn α)) :
    Run c (c.history turns) (c.after turns) := by
  induction turns generalizing c with
  | nil => exact .rest c
  | cons s turns ih =>
    cases s with
    | arrive t call =>
      cases hd : c.due t with
      | none =>
        rw [history, after, turn_arrive hd]
        exact .arrive hd (ih _)
      | some a =>
        have ht : c.turn (.arrive t call) = none := by rw [turn, hd]
        rw [history, after, ht]
        exact ih c
    | act t =>
      cases hd : c.due t with
      | none =>
        have ht : c.turn (.act t) = none := by rw [turn, hd, Option.map_none]
        rw [history, after, ht]
        exact ih c
      | some a =>
        rw [history, after, turn_act hd]
        exact .act hd (ih _)

namespace Run

/-- The gate counts the arrivals of all threads together. -/
theorem arriveMany (r : Run c h c') :
    Gate.arriveMany (findings h).length c.gate = ((findings h).count .opened, c'.gate) := by
  induction r with
  | rest => rfl
  | @arrive c c' t call h _ _ ih =>
    have hf : findings (.arrived t call c.gate.arrive.1 :: h) = c.gate.arrive.1 :: findings h := rfl
    rw [hf, List.length_cons, Gate.arriveMany, List.count_cons]
    change Gate.arriveMany (findings h).length c.gate.arrive.2 = _ at ih
    dsimp only
    rw [ih]
    simp
  | act _ _ ih => exact ih

/-- What an arrival finds depends on the number of those before it alone. -/
theorem findings_eq (r : Run c h c') (hn : 0 < n) {k : Nat} (hg : c.gate = ⟨n - k⟩) :
    findings h = (List.range' k (findings h).length).map (finding n) := by
  induction r generalizing k with
  | rest => rfl
  | @arrive c c' t call h _ _ ih =>
    have hf : findings (.arrived t call c.gate.arrive.1 :: h) = c.gate.arrive.1 :: findings h := rfl
    have ha := arrive_eq hn k
    rw [← hg] at ha
    have hg' : (c.arrived t call).gate = ⟨n - (k + 1)⟩ := congrArg Prod.snd ha
    rw [hf, List.length_cons, List.range'_succ, List.map_cons, ← ih hg', ha]
  | act _ _ ih => exact ih hg

/-- Every arrival is told what it is told in a script of the arrivals, and promises an action where
the script runs one. -/
theorem answers_eq (r : Run c h c') :
    (runGate c.gate (script h)).map (fun reply => (reply.opened, reply.ran)) = answers h := by
  induction r with
  | rest => rfl
  | @arrive c c' t call h _ _ ih =>
    have hs : runGate c.gate (script (.arrived t call c.gate.arrive.1 :: h)) =
        call.step.run c.gate :: runGate (c.arrived t call).gate (script h) := rfl
    have ha : answers (.arrived t call c.gate.arrive.1 :: h) =
        ((call.step.run c.gate).opened,
          (promised? (.arrived t call c.gate.arrive.1)).toList.length) :: answers h := rfl
    rw [hs, ha, List.map_cons, ih, ran_step]
  | act _ _ ih => exact ih

end Run

/-! ## The action -/

/-- Whose action is due in a crowd, by what was promised so far and what was started. -/
inductive Owing (c : Crowd α) : List (Nat × α) → List (Nat × α) → Prop where
  | nothing (hd : c.due = fun _ => none) : Owing c [] []
  | pending {t : Nat} {a : α} (hg : c.gate.remaining = 0)
      (hd : c.due = update (fun _ => none) t (some a)) : Owing c [(t, a)] []
  | settled {t : Nat} {a : α} (hg : c.gate.remaining = 0) (hd : c.due = fun _ => none) :
      Owing c [(t, a)] [(t, a)]

/-- An arrival at an open gate leaves the crowd as it is. -/
theorem Crowd.arrived_of_open (hg : c.gate.remaining = 0) (t : Nat) (call : Call α) :
    c.arrived t call = c := by
  rw [arrived, arrive_of_open hg, if_neg nofun]

theorem Crowd.due_arrived_of_ne (ho : c.gate.arrive.1 ≠ .opened) (t : Nat) (call : Call α) :
    (c.arrived t call).due = c.due := if_neg ho

namespace Owing

variable {p s : List (Nat × α)}

/-- Only the arrival that opens the gate promises an action. -/
theorem arrived (o : Owing c p s) (t : Nat) (call : Call α) :
    Owing (c.arrived t call) (p ++ (promised? (.arrived t call c.gate.arrive.1)).toList) s := by
  cases o with
  | nothing hd =>
    by_cases ho : c.gate.arrive.1 = .opened
    · have hdue : (c.arrived t call).due = update (fun _ => none) t call.action? := by
        rw [Crowd.arrived, if_pos ho, hd]
      rw [ho]
      cases call with
      | arrive => exact .nothing (hdue.trans (Function.update_eq_self t _))
      | arriveThen a => exact .pending (remaining_of_opened ho) hdue
    · rw [promised?_of_ne ho]
      exact .nothing ((Crowd.due_arrived_of_ne ho t call).trans hd)
  | pending hg hd =>
    rw [Crowd.arrived_of_open hg, promised?_of_open hg]
    exact .pending hg hd
  | settled hg hd =>
    rw [Crowd.arrived_of_open hg, promised?_of_open hg]
    exact .settled hg hd

/-- The action that is due belongs to the arrival that has opened the gate. -/
theorem of_due (o : Owing c p s) (hd : c.due t = some a) :
    p = [(t, a)] ∧ s = [] ∧ c.gate.remaining = 0 ∧
      c.due = update (fun _ => none) t (some a) := by
  cases o with
  | nothing hn | settled _ hn =>
    rw [hn] at hd
    cases hd
  | @pending t' a' hg hn =>
    by_cases ht : t = t'
    · subst ht
      rw [hn, Function.update_self] at hd
      cases hd
      exact ⟨rfl, rfl, hg, hn⟩
    · rw [hn, Function.update_of_ne ht] at hd
      cases hd

theorem mem_of_due (o : Owing c p s) (hd : c.due t = some a) : (t, a) ∈ p := by
  rw [(o.of_due hd).1]
  exact List.mem_singleton_self _

/-- An action is started once. -/
theorem acted (o : Owing c p s) (hd : c.due t = some a) :
    Owing (c.acted t) p (s ++ [(t, a)]) := by
  obtain ⟨rfl, rfl, hg, hdue⟩ := o.of_due hd
  refine .settled hg ?_
  rw [Crowd.acted, hdue, Function.update_idem, Function.update_eq_self]

theorem once (o : Owing c p s) : s.length ≤ 1 := by
  cases o with
  | nothing | pending => exact Nat.zero_le 1
  | settled => exact Nat.le_refl 1

/-- Nothing is started that was not promised. -/
theorem isPrefix (o : Owing c p s) : s <+: p := by
  cases o with
  | nothing | pending => exact List.nil_prefix
  | settled => exact List.prefix_rfl

/-- What was promised is due until it is started. -/
theorem kept (o : Owing c p s) (hp : (t, a) ∈ p) : (t, a) ∈ s ∨ c.due t = some a := by
  cases o with
  | nothing => cases hp
  | settled => exact .inl hp
  | pending _ hd =>
    cases List.mem_singleton.1 hp
    exact .inr (by rw [hd, Function.update_self])

end Owing

/-- Through a whole run the actions that are due are those promised and not yet started. -/
theorem Run.owing {p s : List (Nat × α)} (r : Run c h c') (o : Owing c p s) :
    Owing c' (p ++ promised h) (s ++ started h) := by
  induction r generalizing p s with
  | rest =>
    rw [promised, started, List.filterMap_nil, List.filterMap_nil, List.append_nil,
      List.append_nil]
    exact o
  | @arrive c c' t call h _ _ ih =>
    rw [promised_cons, ← List.append_assoc]
    exact ih (o.arrived t call)
  | @act c c' t a h hd _ ih =>
    have hs := ih (o.acted hd)
    rw [List.append_assoc] at hs
    exact hs

/-! ## One arrival opens the gate -/

/-- What has come of a gate for `n` and the threads at it, by the events up to now. -/
structure OpensOnce (n : Nat) (h : List (Event α)) (c : Crowd α) : Prop where
  /-- Every arrival is counted up to the last one that is needed. -/
  missing : (findings h).length ≤ n → c.gate.remaining + (findings h).length = n
  /-- Later ones do not take the count below zero. -/
  surplus : n ≤ (findings h).length → c.gate.remaining = 0
  /-- One arrival is told that it has opened the gate, as soon as there are enough. -/
  opened : (findings h).count .opened = if n ≤ (findings h).length then 1 else 0
  /-- Which arrival opens the gate is a matter of its number alone. -/
  found : findings h = (List.range (findings h).length).map (finding n)
  /-- A thread can always arrive, unless it has opened the gate and its action is not started. -/
  arrives t call : (∃ a, .arrived t (.arriveThen a) .opened ∈ h ∧ (t, a) ∉ started h) ∨
    c.turn (.arrive t call) =
      some (.arrived t call (finding n (findings h).length), c.arrived t call)
  /-- A script of the arrivals tells the same ones that they open the gate, and runs an action where
  one is promised. -/
  told : (runGate ⟨n⟩ (script h)).map (fun reply => (reply.opened, reply.ran)) = answers h
  once : (started h).length ≤ 1
  own t a : (t, a) ∈ started h → .arrived t (.arriveThen a) .opened ∈ h
  /-- An action is started behind an open gate, by the thread that has opened it. -/
  acts t e c' : c.turn (.act t) = some (e, c') → c.gate.isOpen = true ∧ started h = [] ∧
    ∃ a, e = .acted t a ∧ .arrived t (.arriveThen a) .opened ∈ h
  /-- The action of the arrival that has opened the gate can be started until it is. -/
  kept t a : .arrived t (.arriveThen a) .opened ∈ h →
    (t, a) ∈ started h ∨ c.turn (.act t) = some (.acted t a, c.acted t)

/-- There is a gate for any number of participants but zero. Whatever threads come to it, in
whatever order, those missing are counted down to zero and no further. One arrival opens the gate,
as soon as there are enough of them. Its own action is the only one that is ever started, at most
once, and not before nobody is missing any more. -/
theorem opens_once (hn : 0 < n) :
    ofParticipants n = .ok ⟨n⟩ ∧ ∀ turns : List (Turn α),
      OpensOnce n ((Crowd.start n).history turns) ((Crowd.start n).after turns) := by
  refine ⟨if_neg (Nat.ne_of_gt hn), fun turns => ?_⟩
  have r := Crowd.run_turns (Crowd.start n : Crowd α) turns
  generalize (Crowd.start n).history turns = h at r ⊢
  generalize (Crowd.start n).after turns = c at r ⊢
  have hcount := r.arriveMany
  rw [arriveMany_eq, Prod.mk.injEq] at hcount
  obtain ⟨hopened, hgate⟩ := hcount
  have o : Owing c (promised h) (started h) := r.owing (.nothing rfl)
  exact {
    missing := fun hk => by
      rw [← hgate]
      exact Nat.sub_add_cancel hk
    surplus := fun hk => by
      rw [← hgate]
      exact Nat.sub_eq_zero_of_le hk
    opened := by
      rw [← hopened]
      simp only [Crowd.start, hn, true_and]
    found := by
      rw [List.range_eq_range']
      exact r.findings_eq hn rfl
    arrives := fun t call => by
      cases hd : c.due t with
      | none =>
        have hf : c.gate.arrive.1 = finding n (findings h).length := by
          rw [← hgate]
          exact congrArg Prod.fst (arrive_eq hn _)
        exact .inr (by rw [Crowd.turn_arrive hd, hf])
      | some a =>
        obtain ⟨-, hs, -⟩ := o.of_due hd
        refine .inl ⟨a, mem_promised_iff.1 (o.mem_of_due hd), ?_⟩
        rw [hs]
        exact List.not_mem_nil
    told := r.answers_eq
    once := o.once
    own := fun t a hs => mem_promised_iff.1 (o.isPrefix.subset hs)
    acts := fun t e c' ht => by
      obtain ⟨a, hd, he⟩ := Option.map_eq_some_iff.1 ht
      obtain ⟨-, hs, hg, -⟩ := o.of_due hd
      cases he
      exact ⟨decide_eq_true hg, hs, a, rfl, mem_promised_iff.1 (o.mem_of_due hd)⟩
    kept := fun t a he =>
      (o.kept (mem_promised_iff.2 he)).imp_right Crowd.turn_act }

/-- Four threads at a gate for three: two turns are too early, one comes in the middle of a call. -/
def exampleTurns : List (Turn String) :=
  [.arrive 0 .arrive, .arrive 1 (.arriveThen "bind"), .act 1, .arrive 2 (.arriveThen "wire"),
    .arrive 2 .arrive, .arrive 0 (.arriveThen "again"), .act 0, .act 2, .arrive 2 .arrive,
    .arrive 3 .arrive]

theorem opens_once_of_exampleTurns :
    0 < 3 ∧ ofParticipants 3 = .ok ⟨3⟩ ∧
      (Crowd.start 3).history exampleTurns =
        [.arrived 0 .arrive .waited, .arrived 1 (.arriveThen "bind") .waited,
          .arrived 2 (.arriveThen "wire") .opened, .arrived 0 (.arriveThen "again") .surplus,
          .acted 2 "wire", .arrived 2 .arrive .surplus, .arrived 3 .arrive .surplus] ∧
      OpensOnce 3 ((Crowd.start 3).history exampleTurns) ((Crowd.start 3).after exampleTurns) :=
  ⟨by decide, (opens_once (α := String) (by decide)).1, by decide,
    (opens_once (by decide)).2 exampleTurns⟩

end WorkerLink.Gate
