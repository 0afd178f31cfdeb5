import WorkerLink.Proofs.Channel.Alone
import WorkerLink.Proofs.Channel.Preparing
import WorkerLink.Proofs.Channel.Sending
import WorkerLink.Proofs.Channel.Standing

/-!
# A worker, its commands and the three calls, in any order

A scenario fixes what a worker sends, which commands are sent to it and how the owner registers.
A run plays it (`Scenario.Plays`) if the actions of each side come in their own order, with those of
the others and the steps of all tasks in between in any way. `Playing` is what holds of every
beginning of such a run.
-/

namespace WorkerLink

/-- What a worker and the owner of its channel do, each in order. -/
structure Scenario where
  /-- The bytes that the worker sends. -/
  stream : Bytes
  /-- Whether it ends its stream behind them. -/
  ended : Bool
  /-- The commands that are sent to it. -/
  commands : List Payload
  /-- Whether its output is relayed. -/
  output : Bool

namespace Action

def request? : Action → Option Request
  | .begin r => some r
  | _ => none

def sent? : Action → Option (QueueId × Payload)
  | .command q p => some (q, p)
  | _ => none

def chunk? : Action → Option Bytes
  | .send _ b => some b
  | _ => none

def isFinish : Action → Bool
  | .finish _ => true
  | _ => false

/-- Whether an action leaves the faults, the worker's output and the ends of the queues alone. -/
def isPlain : Action → Bool
  | .makeQueue | .dropSender _ | .print _ | .endOutput _ | .setFaults _ => false
  | _ => true

end Action

namespace Scenario

variable {s : Scenario} {as : List Action} {a : Action}

/-- What a worker does that sends its stream in chunks and then may end it. -/
def workerActions (chunks : List Bytes) (ended : Bool) : List Action :=
  .join :: chunks.map (.send 0) ++ if ended then [.finish 0] else []

/-- A run in which a scenario is played: but for its actions there are only steps of the tasks and
of the calls, and the worker taking what it has received. -/
structure Plays (s : Scenario) (as : List Action) : Prop where
  worker : ∃ chunks, chunks.flatten = s.stream ∧
    as.filter Action.ofClient = workerActions chunks s.ended
  commands : as.filterMap Action.sent? = s.commands.map fun p => (0, p)
  calls : (as.filterMap Action.request?).Perm [.connect, .bindCommands 0, .bindEvents s.output]
  rest : ∀ a ∈ as, a.isPlain = true

/-- A beginning of a run in which a scenario is played. -/
structure Begins (s : Scenario) (as : List Action) : Prop where
  worker : as.filter Action.ofClient = [] ∨
    ∃ chunks ended, as.filter Action.ofClient = workerActions chunks ended
  commands : ∀ x ∈ as.filterMap Action.sent?, x.1 = 0
  calls : ∀ r ∈ as.filterMap Action.request?,
    r = .connect ∨ r = .bindCommands 0 ∨ r = .bindEvents s.output
  once : ∀ k, as.countP (Action.prepares k) ≤ 1
  rest : ∀ a ∈ as, a.isPlain = true

theorem countP_prepares (as : List Action) (k : Preparation) :
    as.countP (Action.prepares k) =
      (as.filterMap Action.request?).countP (Request.prepares k) := by
  rw [List.countP_filterMap]
  exact List.countP_congr fun a _ => by cases a <;> exact .rfl

theorem Plays.begins (h : s.Plays as) : s.Begins as where
  worker := by
    obtain ⟨chunks, -, hw⟩ := h.worker
    exact .inr ⟨chunks, s.ended, hw⟩
  commands x hx := by
    rw [h.commands, List.mem_map] at hx
    obtain ⟨p, -, rfl⟩ := hx
    rfl
  calls r hr := by
    have hm := h.calls.subset hr
    simpa only [List.mem_cons, List.not_mem_nil, or_false] using hm
  once k := by
    rw [countP_prepares, h.calls.countP_eq]
    cases k <;> exact Nat.le_refl 1
  rest := h.rest

/-- The last thing that a worker did, and what it did before. -/
theorem workerActions_concat {cl : List Action} {chunks : List Bytes} {ended : Bool}
    (h : cl ++ [a] = workerActions chunks ended) :
    (a = .join ∧ cl = []) ∨ (∃ b init, a = .send 0 b ∧ cl = workerActions init false) ∨
      (a = .finish 0 ∧ cl = workerActions chunks false) := by
  cases ended with
  | true =>
    have hw : workerActions chunks true = workerActions chunks false ++ [.finish 0] := by
      simp [workerActions]
    rw [hw] at h
    obtain ⟨hcl, ha⟩ := List.append_inj' h rfl
    exact .inr (.inr ⟨List.singleton_inj.1 ha, hcl⟩)
  | false =>
    rcases chunks.eq_nil_or_concat' with rfl | ⟨init, b, rfl⟩
    · have hw : workerActions [] false = [] ++ [.join] := rfl
      rw [hw] at h
      obtain ⟨hcl, ha⟩ := List.append_inj' h rfl
      exact .inl ⟨List.singleton_inj.1 ha, hcl⟩
    · have hw : workerActions (init ++ [b]) false = workerActions init false ++ [.send 0 b] := by
        simp [workerActions]
      rw [hw] at h
      obtain ⟨hcl, ha⟩ := List.append_inj' h rfl
      exact .inr (.inl ⟨b, init, List.singleton_inj.1 ha, hcl⟩)

theorem Begins.init (h : s.Begins (as ++ [a])) : s.Begins as where
  worker := by
    have hw := h.worker
    cases ha : a.ofClient with
    | false => simpa [ha] using hw
    | true =>
      have hf : (as ++ [a]).filter Action.ofClient = as.filter Action.ofClient ++ [a] := by
        simp [ha]
      rw [hf] at hw
      rcases hw with hw | ⟨chunks, ended, hw⟩
      · simp at hw
      · rcases workerActions_concat hw with ⟨-, hcl⟩ | ⟨b, init, -, hcl⟩ | ⟨-, hcl⟩
        · exact .inl hcl
        · exact .inr ⟨init, false, hcl⟩
        · exact .inr ⟨chunks, false, hcl⟩
  commands x hx := h.commands x (by rw [List.filterMap_append]; exact List.mem_append_left _ hx)
  calls r hr := h.calls r (by rw [List.filterMap_append]; exact List.mem_append_left _ hr)
  once k := Nat.le_trans (by rw [List.countP_append]; exact Nat.le_add_right ..) (h.once k)
  rest x hx := h.rest x (List.mem_append_left _ hx)

end Scenario

namespace Channel

variable {ch ch' : Channel} {a : Action} {as : List Action} {s : Scenario}

/-- The bytes that a worker has sent. -/
def bytesSent (cl : List Action) : Bytes := (cl.filterMap Action.chunk?).flatten

/-- Who has connected, by what the worker has done. -/
def Attends (ch : Channel) (cl : List Action) : Prop :=
  (cl = [] ∧ ch.Deserted) ∨ (cl ≠ [] ∧ ch.Alone (bytesSent cl) (cl.any Action.isFinish))

/-- What holds of a channel after every beginning of a run in which a scenario is played. -/
structure Playing (s : Scenario) (ch : Channel) (as : List Action) : Prop where
  inv : ch.Inv
  calm : ch.Calm
  permits : ch.Permits
  reserves : ch.Reserves
  standing : ch.Standing
  supplies : ch.Supplies fun q => sentTo q as
  begun : ∀ k, ch.preparations k ≤ as.countP (Action.prepares k)
  calls : ch.calls.length =
    ch.preparations .connect + ch.preparations .commands + ch.preparations .events
  relays : ch.calls.countP Call.relays + ch.relay.isRunning.toNat =
    if s.output then ch.preparations .events else 0
  output : ch.output = {}
  queues : ch.queues.length = 1
  sender : (ch.queue 0).isOpen = true ∧ (ch.queue 0).hasSender 0 = true
  attends : ch.Attends (as.filter Action.ofClient)

/-! ## The queue and the output -/

/-- No queue is closed or loses its sender. -/
theorem Move.queue_kept (m : Move ch a ch') (h : ch.Calm) (hi : ch.Inv)
    (hone : ∀ k, ch.preparations k ≤ 1) (hp : a.isPlain = true) (q : QueueId) :
    ch'.queues.length = ch.queues.length ∧ (ch'.queue q).isOpen = (ch.queue q).isOpen ∧
      (ch'.queue q).senders = (ch.queue q).senders := by
  have same (hq : ch'.queues = ch.queues) : ch'.queues.length = ch.queues.length ∧
      (ch'.queue q).isOpen = (ch.queue q).isOpen ∧
      (ch'.queue q).senders = (ch.queue q).senders := by
    rw [queue_eq hq, hq]
    exact ⟨rfl, rfl, rfl⟩
  have changed {k : QueueId} {f : CommandQueue Payload → CommandQueue Payload}
      (hq : ch'.queues = (ch.onQueue k f).queues)
      (hf : (f (ch.queue k)).isOpen = (ch.queue k).isOpen ∧
        (f (ch.queue k)).senders = (ch.queue k).senders) :
      ch'.queues.length = ch.queues.length ∧ (ch'.queue q).isOpen = (ch.queue q).isOpen ∧
        (ch'.queue q).senders = (ch.queue q).senders := by
    refine ⟨by rw [hq, onQueue, List.length_modify], ?_⟩
    rw [queue_eq hq, queue_onQueue]
    split
    · rename_i hk
      rw [← hk.1]
      exact hf
    · exact ⟨rfl, rfl⟩
  cases m with
  | acceptor m => cases m <;> exact same rfl
  | verifier m =>
    cases m with
    | wire _ m | wired _ m => exact same m.queues_eq
    | _ => exact same rfl
  | consumer m => cases m <;> exact same rfl
  | producer m =>
    cases m with
    | halt | exhausted => exact same rfl
    | refused _ _ _ hn | unwritable _ _ _ hn | sent _ _ _ hn =>
      exact changed rfl (CommandQueue.next_item_inv hn).2
  | relay m => cases m <;> exact same rfl
  | reclaimer hd =>
    rw [(hi.open_of h.closed).dropped] at hd
    cases hd
  | call hc m =>
    cases m with
    | bindCommandsClosed hx =>
      rw [h.closed] at hx
      cases hx
    | commandsBound hx =>
      have hn := not_prepared (hone .commands) hc rfl
      simp only [prepared, hx] at hn
      cases hn
    | wire m | wired m => exact same m.queues_eq
    | _ => exact same rfl
  | command => exact changed rfl (sendCommand_kept ..)
  | makeQueue | dropSender => cases hp
  | _ => exact same rfl

/-- Nothing comes out of the worker. -/
theorem Move.output_eq (m : Move ch a ch') (ho : ch.Open) (hp : a.isPlain = true)
    (h : ch.output = {}) : ch'.output = {} := by
  cases m with
  | acceptor m => cases m <;> exact h
  | verifier m =>
    cases m with
    | wire _ m | wired _ m => exact m.output_eq.trans h
    | _ => exact h
  | consumer m => cases m <;> exact h
  | producer m => cases m <;> exact h
  | relay m => exact (m.nonempty ho h).elim
  | call _ m =>
    cases m with
    | wire m | wired m => exact m.output_eq.trans h
    | _ => exact h
  | print | endOutput => cases hp
  | _ => exact h

/-! ## The worker -/

theorem bytesSent_concat (cl : List Action) (a : Action) :
    bytesSent (cl ++ [a]) = bytesSent cl ++ (a.chunk?.getD []) := by
  cases h : a.chunk? <;> simp [bytesSent, h]

theorem Attends.concat {cl : List Action} (h : ch.Attends cl) (hc : ch.Calm)
    {chunks : List Bytes} {ended : Bool}
    (hw : cl ++ [a] = Scenario.workerActions chunks ended) :
    (ch.step a).Attends (cl ++ [a]) := by
  refine .inr ⟨by simp, ?_⟩
  rw [bytesSent_concat, List.any_append]
  rcases Scenario.workerActions_concat hw with ⟨rfl, rfl⟩ | ⟨b, init, rfl, rfl⟩ | ⟨rfl, rfl⟩
  · exact (h.resolve_right fun hn => hn.1 rfl).2.join hc
  · have hal := (h.resolve_left fun hn => nomatch hn.1).2
    have hf : (Scenario.workerActions init false).any Action.isFinish = false := by
      simp [Scenario.workerActions, Action.isFinish]
    rw [hf] at hal ⊢
    exact hal.send b
  · have hal := (h.resolve_left fun hn => nomatch hn.1).2
    have hr : ((Scenario.workerActions chunks false).any Action.isFinish ||
        [Action.finish 0].any Action.isFinish) = true := Bool.or_true _
    rw [hr, show ((Action.finish 0).chunk?.getD []) = [] from rfl, List.append_nil]
    exact hal.finish

theorem Attends.keeps {cl : List Action} (h : ch.Attends cl) (m : Move ch a ch') (hc : ch.Calm)
    (hi : ch.Inv) (ha : a.ofClient = false) : ch'.Attends cl :=
  h.imp (fun ⟨hn, hd⟩ => ⟨hn, hd.keeps m hc hi (by rintro rfl; cases ha)⟩)
    fun ⟨hn, hal⟩ => ⟨hn, hal.keeps m hc hi ha⟩

/-! ## Every action -/

theorem step_keeps {P : Channel → Prop} (h : P ch) (hm : Move ch a (ch.step a) → P (ch.step a)) :
    P (ch.step a) := by
  rcases ch.step_cases a with he | m
  · rw [he]
    exact h
  · exact hm m

theorem isCalm_of_begins (h : s.Begins (as ++ [a])) : a.isCalm = true := by
  have hp := h.rest a (by simp)
  cases a with
  | begin r =>
    have hr := h.calls r (by simp [Action.request?])
    rcases hr with rfl | rfl | rfl <;> rfl
  | setFaults => cases hp
  | leave l | reset l =>
    rcases h.worker with hw | ⟨chunks, ended, hw⟩
    · simp [Action.ofClient] at hw
    · rw [List.filter_append] at hw
      rcases Scenario.workerActions_concat hw with ⟨he, -⟩ | ⟨b, init, he, -⟩ | ⟨he, -⟩ <;>
        cases he
  | _ => rfl

theorem Playing.one (h : Playing s ch as) (hb : s.Begins as) (k : Preparation) :
    ch.preparations k ≤ 1 :=
  Nat.le_trans (h.begun k) (hb.once k)

/-- A channel is not given a queue before it is asked to take commands from it. -/
theorem given_of_unprepared (h : ch.preparations .commands = 0) : ch.given = [] := by
  obtain ⟨hcount, hp⟩ := Nat.add_eq_zero_iff.1 h
  have hc : ch.commands = none := by
    cases hx : ch.commands with
    | none => rfl
    | some q => simp [prepared, hx] at hp
  rw [given, hc, List.filterMap_eq_nil_iff.2 ?_]
  · rfl
  · intro c hm
    have hn := List.countP_eq_zero.1 hcount c hm
    cases c <;> first | rfl | exact (hn rfl).elim

theorem Playing.permitted (h : Playing s ch as) (hb : s.Begins (as ++ [a])) :
    ch.permits a = true := by
  cases a with
  | command q p =>
    obtain rfl : q = 0 := hb.commands (q, p) (by simp [Action.sent?])
    simp [Channel.permits, h.queues, h.sender.2]
  | begin r =>
    cases r with
    | bindCommands q =>
      have hr := hb.calls (.bindCommands q) (by simp [Action.request?])
      obtain rfl : q = 0 := by simpa using hr
      have hn : ch.preparations .commands = 0 := by
        have honce := hb.once .commands
        have hle := h.begun .commands
        rw [List.countP_append, countP_singleton_toNat] at honce
        have hone : (Action.prepares .commands (.begin (.bindCommands 0))).toNat = 1 := rfl
        omega
      simp [Channel.permits, h.queues, h.sender.1, given_of_unprepared hn]
    | _ => rfl
  | _ => rfl

theorem Playing.supplies_step (h : Playing s ch as) (hb : s.Begins (as ++ [a])) :
    (ch.step a).Supplies fun q => sentTo q (as ++ [a]) := by
  have hsent : (fun q => sentTo q (as ++ [a])) =
      fun q => sentTo q as ++ (a.command? q).toList := funext fun q => sentTo_concat q as a
  rw [hsent]
  rcases step_cases_of_command ch a with ⟨he, hn⟩ | m
  · simpa only [he, hn, Option.toList_none, List.append_nil] using h.supplies
  · exact h.supplies.keeps h.inv m h.calm.closed (h.permitted hb)

theorem Playing.relays_step (h : Playing s ch as) (hb : s.Begins (as ++ [a])) :
    (ch.step a).calls.countP Call.relays + (ch.step a).relay.isRunning.toNat =
      if s.output then (ch.step a).preparations .events else 0 := by
  have hone := h.one hb.init
  refine step_keeps (P := fun x => x.calls.countP Call.relays + x.relay.isRunning.toNat =
    if s.output then x.preparations .events else 0) h.relays ?_
  intro m
  rw [m.relays h.calm h.inv h.permits hone h.output,
    m.preparations h.calm h.inv hone (k := .events), h.relays]
  cases a with
  | begin r =>
    have hr := hb.calls r (by simp [Action.request?])
    rcases hr with rfl | rfl | rfl
    · rfl
    · rfl
    · cases s.output <;> rfl
  | _ => rfl

theorem Playing.attends_step (h : Playing s ch as) (hb : s.Begins (as ++ [a])) :
    (ch.step a).Attends ((as ++ [a]).filter Action.ofClient) := by
  have hw := hb.worker
  rw [List.filter_append] at hw ⊢
  cases ha : a.ofClient with
  | false =>
    have hf : [a].filter Action.ofClient = [] := by simp [ha]
    rw [hf, List.append_nil]
    exact step_keeps (P := fun x => x.Attends (as.filter Action.ofClient)) h.attends
      fun m => h.attends.keeps m h.calm h.inv ha
  | true =>
    have hf : [a].filter Action.ofClient = [a] := by simp [ha]
    rw [hf] at hw ⊢
    rcases hw with hw | ⟨chunks, ended, hw⟩
    · simp at hw
    · exact h.attends.concat h.calm hw

/-- A beginning of a run stays one with one more action. -/
theorem Playing.step (h : Playing s ch as) (hb : s.Begins (as ++ [a])) :
    Playing s (ch.step a) (as ++ [a]) := by
  have hone := h.one hb.init
  have hcalm := isCalm_of_begins hb
  have hplain := hb.rest a (by simp)
  have calm : (ch.step a).Calm := step_keeps h.calm fun m => h.calm.keeps h.inv m hcalm
  have hopen := h.inv.open_of h.calm.closed
  refine
    { inv := step_keeps h.inv h.inv.keeps
      calm := calm
      permits := step_keeps h.permits fun m => h.permits.keeps h.inv m
      reserves := step_keeps h.reserves fun m => h.reserves.keeps h.inv m calm.closed
      standing := step_keeps h.standing fun m => h.standing.keeps h.inv m calm.closed
      supplies := h.supplies_step hb
      begun := fun k => ?_
      calls := step_keeps (P := fun x => x.calls.length =
          x.preparations .connect + x.preparations .commands + x.preparations .events) h.calls
        fun m => m.length_calls h.calm h.inv hcalm hone h.calls
      relays := h.relays_step hb
      output := step_keeps (P := fun x => x.output = {}) h.output
        fun m => m.output_eq hopen hplain h.output
      queues := step_keeps (P := fun x => x.queues.length = 1) h.queues
        fun m => (m.queue_kept h.calm h.inv hone hplain 0).1.trans h.queues
      sender := step_keeps
        (P := fun x => (x.queue 0).isOpen = true ∧ (x.queue 0).hasSender 0 = true) h.sender ?_
      attends := h.attends_step hb }
  · rw [List.countP_append, countP_singleton_toNat]
    have hle := h.begun k
    refine step_keeps (P := fun x => x.preparations k ≤ _) (by omega) ?_
    intro m
    rw [m.preparations h.calm h.inv hone (k := k)]
    omega
  · intro m
    obtain ⟨-, ho, hs⟩ := m.queue_kept h.calm h.inv hone hplain 0
    rw [ho, CommandQueue.hasSender, hs]
    exact h.sender

/-- What holds after every beginning of a run in which a scenario is played, from a channel that
was just opened and a queue for it. -/
theorem playing_of_begins {m : Machine} {faults : Faults} {config : Config} {fresh : SessionId}
    {port : UInt16} {shape : Json.Shape} {start : Channel}
    (hstart : create m faults config fresh port shape = .ok start) (hb : s.Begins as) :
    Playing s ((start.step .makeQueue).run as) as := by
  induction as using List.reverseRecOn with
  | append_singleton as a ih =>
    rw [run_concat]
    exact (ih hb.init).step hb
  | nil =>
    obtain ⟨descriptor, codec, rfl⟩ := create_eq hstart
    have inv : Inv (step { forkId := config.forkId, descriptor, codec } .makeQueue) :=
      (Inv.initial ..).keeps .makeQueue
    refine
      { inv := inv
        calm := (Calm.initial ..).keeps (.initial ..) .makeQueue rfl
        permits := ⟨rfl, nofun, Nat.le_refl 0⟩
        reserves := ⟨fun _ => rfl, nofun, nofun, nofun⟩
        standing := rfl
        supplies := ⟨⟨.nil, nofun⟩, fun q _ _ => ?_, nofun⟩
        begun := fun k => by cases k <;> exact Nat.le_refl 0
        calls := rfl
        relays := by cases s.output <;> rfl
        output := rfl
        queues := rfl
        sender := ⟨rfl, rfl⟩
        attends := .inl ⟨rfl, rfl, rfl⟩ }
    cases q <;> rfl

end Channel

end WorkerLink
