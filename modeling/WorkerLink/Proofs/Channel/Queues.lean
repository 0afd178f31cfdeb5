import WorkerLink.Proofs.Channel.Gathering

/-!
# Command queues and who holds their ends

A command is sent through a sender that is still there, and the taking side of a queue is given away
once (`Channel.permits`). So the queues that a channel was given are open and no two of its calls
have the same one (`Owns`), and what happens to an open queue from outside is that commands are
added to it (`Move.fed`).
-/

namespace WorkerLink

/-- The command that an action sends to a queue. -/
def Action.command? (q : QueueId) : Action → Option Payload
  | .command k p => if k = q then some p else none
  | _ => none

/-- The commands that a run sends to a queue, in order. -/
def sentTo (q : QueueId) (as : List Action) : List Payload := as.filterMap (Action.command? q)

theorem sentTo_concat (q : QueueId) (as : List Action) (a : Action) :
    sentTo q (as ++ [a]) = sentTo q as ++ (a.command? q).toList := by
  cases h : a.command? q <;> simp [sentTo, h]

def Call.queue? : Call → Option QueueId
  | .bindCommands q | .setCommands q => some q
  | _ => none

/-- What happens to a queue while nobody takes from it: `new` is added. -/
structure CommandQueue.Fed {α : Type} (x x' : CommandQueue α) (new : List α) : Prop where
  items : x'.items = x.items ++ new
  isOpen : x'.isOpen = x.isOpen
  exhausted : x.hasSender 0 = false → x'.hasSender 0 = false ∧ new = []

/-- What happens to a queue while nobody takes from it, whoever uses it: it is closed, or commands
are added behind those that are there. -/
structure CommandQueue.Keeps {α : Type} (x x' : CommandQueue α) : Prop where
  isOpen : x'.isOpen = true → x.isOpen = true
  items : x'.isOpen = true → x.items <+: x'.items

namespace CommandQueue

variable {α : Type} {x x' : CommandQueue α} {a : α}

theorem Keeps.refl (x : CommandQueue α) : x.Keeps x := ⟨id, fun _ => List.prefix_rfl⟩

theorem Keeps.trans {y : CommandQueue α} (h : x.Keeps x') (h' : x'.Keeps y) : x.Keeps y :=
  ⟨fun hy => h.isOpen (h'.isOpen hy), fun hy => (h.items (h'.isOpen hy)).trans (h'.items hy)⟩

theorem keeps_close (x : CommandQueue α) : x.Keeps x.close := ⟨nofun, nofun⟩

theorem keeps_dropSender (x : CommandQueue α) : x.Keeps (x.dropSender 0) :=
  ⟨id, fun _ => List.prefix_rfl⟩

theorem Fed.refl (x : CommandQueue α) : x.Fed x [] := ⟨by simp, rfl, fun h => ⟨h, rfl⟩⟩

theorem fed_dropSender (x : CommandQueue α) : x.Fed (x.dropSender 0) [] := by
  refine ⟨by simp [dropSender], rfl, fun _ => ⟨?_, rfl⟩⟩
  cases hs : x.senders <;> simp [dropSender, hasSender, hs]

theorem send_eq (h : x.isOpen = true) (a : α) :
    x.send a = .ok { x with items := x.items ++ [a] } := by
  simp [send, h]

theorem next_item_inv (h : x.next = (.item a, x')) :
    x.items = a :: x'.items ∧ x'.isOpen = x.isOpen ∧ x'.senders = x.senders := by
  unfold next at h
  split at h
  · rename_i hi
    cases h
    exact ⟨hi, rfl, rfl⟩
  · split at h <;> cases h

theorem next_exhausted_inv (h : x.next = (.exhausted, x')) :
    x.items = [] ∧ x.hasSender 0 = false := by
  unfold next at h
  split at h
  · cases h
  · rename_i hi
    refine ⟨hi, ?_⟩
    cases hs : x.senders with
    | nil => simp [hasSender, hs]
    | cons s senders =>
      cases s with
      | false => simp [hasSender, hs]
      | true => simp [hs] at h

end CommandQueue

namespace Channel

variable {ch ch' : Channel} {a : Action} {q k : QueueId}

/-- The queue of a number; one that was not made yet is a new one. -/
def queue (ch : Channel) (q : QueueId) : CommandQueue Payload := ch.queues.getD q {}

/-- The queues that a channel was given, and did not refuse. -/
def given (ch : Channel) : List QueueId := ch.commands.toList ++ ch.calls.filterMap Call.queue?

/-- Whether an action takes an end of a queue that is there to be used: to send a command takes a
sender, and to register a command source takes the taking side, which is given away with it. -/
def permits (ch : Channel) : Action → Bool
  | .command q _ => decide (q < ch.queues.length) && (ch.queue q).hasSender 0
  | .begin (.bindCommands q) =>
    decide (q < ch.queues.length) && (ch.queue q).isOpen && !ch.given.contains q
  | _ => true

/-- Whether every action of a run is permitted. -/
def obeys (ch : Channel) : List Action → Bool
  | [] => true
  | a :: as => ch.permits a && (ch.step a).obeys as

theorem obeys_concat (ch : Channel) (as : List Action) (a : Action) :
    ch.obeys (as ++ [a]) = (ch.obeys as && (ch.run as).permits a) := by
  induction as generalizing ch with
  | nil => simp [obeys, run]
  | cons b as ih =>
    rw [List.cons_append, obeys, ih, obeys, Bool.and_assoc]
    rfl

/-- How the queues are held that a channel was given. -/
structure Owns (ch : Channel) : Prop where
  once : ch.given.Nodup
  known : ∀ q ∈ ch.given, q < ch.queues.length ∧ (ch.queue q).isOpen = true

/-! ## One queue changes -/

theorem queue_onQueue (ch : Channel) (q k : QueueId)
    (f : CommandQueue Payload → CommandQueue Payload) :
    (ch.onQueue q f).queue k =
      if q = k ∧ k < ch.queues.length then f (ch.queue k) else ch.queue k :=
  getD_modify ..

theorem queue_eq (h : ch'.queues = ch.queues) (q : QueueId) : ch'.queue q = ch.queue q := by
  rw [queue, h, queue]

/-! ## What is given to a channel -/

theorem Owns.of_perm (h : ch.Owns) (hq : ch'.queues = ch.queues) (hg : ch'.given.Perm ch.given) :
    ch'.Owns where
  once := hg.nodup_iff.2 h.once
  known q hm := by
    rw [queue_eq hq, hq]
    exact h.known q (hg.subset hm)

theorem Owns.refuse (h : ch.Owns) (hq : ch'.queues = (ch.refuseQueue q).queues)
    (hg : ch.given.Perm (q :: ch'.given)) : ch'.Owns := by
  have hn := List.nodup_cons.1 (hg.nodup_iff.1 h.once)
  refine ⟨hn.2, fun k hm => ?_⟩
  obtain ⟨hlt, hopen⟩ := h.known k (hg.symm.subset (List.mem_cons_of_mem _ hm))
  have hne : q ≠ k := fun he => hn.1 (he ▸ hm)
  rw [queue_eq hq, refuseQueue, queue_onQueue, if_neg fun hk => hne hk.1, hq]
  exact ⟨by simpa [refuseQueue, onQueue] using hlt, hopen⟩

theorem Owns.feed (h : ch.Owns) (hg : ch'.given = ch.given)
    (hq : ch.queues.length ≤ ch'.queues.length)
    (ho : ∀ k ∈ ch.given, (ch'.queue k).isOpen = (ch.queue k).isOpen) : ch'.Owns := by
  refine ⟨hg ▸ h.once, fun k hm => ?_⟩
  rw [hg] at hm
  obtain ⟨hlt, hopen⟩ := h.known k hm
  exact ⟨Nat.lt_of_lt_of_le hlt hq, (ho k hm).trans hopen⟩

theorem WiringMove.queues_eq {w w' : Wiring} (m : WiringMove ch w ch' w') :
    ch'.queues = ch.queues := by
  cases m <;> rfl

/-- A call keeps the queue that it was given, hands it on to the channel or refuses it. -/
theorem CallMove.given {i : Nat} {c c' : Call} (m : CallMove ch c ch' c')
    (hi : ch.calls[i]? = some c) :
    (ch'.queues = ch.queues ∧
      (Channel.given { ch' with calls := ch'.calls.set i c' }).Perm ch.given) ∨
    ∃ q, ch'.queues = (ch.refuseQueue q).queues ∧
      ch.given.Perm (q :: Channel.given { ch' with calls := ch'.calls.set i c' }) := by
  obtain ⟨before, after, hold, hnew⟩ := filterMap_set_split Call.queue? hi
  have hg : ch.given = ch.commands.toList ++ (before ++ c.queue?.toList ++ after) := by
    rw [Channel.given, hold]
  have hg' : Channel.given { ch' with calls := ch'.calls.set i c' } =
      ch'.commands.toList ++ (before ++ c'.queue?.toList ++ after) := by
    rw [Channel.given, m.calls_eq, hnew]
  rw [hg, hg']
  cases m with
  | setCommands hn =>
    left
    rw [hn]
    simpa [Call.queue?] using List.perm_middle.symm
  | @bindCommandsClosed q | @commandsBound q =>
    right
    refine ⟨q, rfl, ?_⟩
    have hm : ch.commands.toList ++ (before ++ [q] ++ after) =
        ch.commands.toList ++ before ++ q :: after := by simp
    have hm' : ch.commands.toList ++ (before ++ [] ++ after) =
        ch.commands.toList ++ before ++ after := by simp
    simp only [Call.queue?, Option.toList_some, Option.toList_none, refuseQueue, onQueue, hm, hm']
    exact List.perm_middle
  | wire m | wired m =>
    left
    rw [m.outcome_eq.2.2.1]
    exact ⟨m.queues_eq, .refl _⟩
  | _ => exact .inl ⟨rfl, .refl _⟩

theorem sendCommand_kept (p : Payload) (x : CommandQueue Payload) :
    (sendCommand p x).isOpen = x.isOpen ∧ (sendCommand p x).senders = x.senders := by
  unfold sendCommand
  split
  · rename_i h
    unfold CommandQueue.send at h
    split at h
    · cases h
      exact ⟨rfl, rfl⟩
    · cases h
  · exact ⟨rfl, rfl⟩

theorem queue_makeQueue (ch : Channel) (q : QueueId) :
    queue { ch with queues := ch.queues ++ [{}] } q = ch.queue q :=
  getD_append_default ..

theorem Owns.keeps (h : ch.Owns) (m : Move ch a ch') (hd : ch.dropped = false)
    (hp : ch.permits a = true) : ch'.Owns := by
  -- a queue that is changed stays as open as it is
  have changed {q : QueueId} {f : CommandQueue Payload → CommandQueue Payload}
      (hq : ch'.queues = (ch.onQueue q f).queues) (hg : ch'.given = ch.given)
      (hf : (f (ch.queue q)).isOpen = (ch.queue q).isOpen) : ch'.Owns := by
    refine h.feed hg (by simp [hq, onQueue]) fun k _ => ?_
    rw [queue_eq hq, queue_onQueue]
    split
    · rename_i hk
      rw [← hk.1, hf]
    · rfl
  cases m with
  | acceptor m => cases m <;> exact h.of_perm rfl (.refl _)
  | verifier m =>
    cases m with
    | wire _ m | wired _ m =>
      refine h.of_perm m.queues_eq (.of_eq ?_)
      simp only [given, m.accepting.2.2.1, m.outcome_eq.2.2.1]
    | _ => exact h.of_perm rfl (.refl _)
  | consumer m => cases m <;> exact h.of_perm rfl (.refl _)
  | producer m =>
    cases m with
    | halt | exhausted => exact h.of_perm rfl (.refl _)
    | refused _ _ _ hn | unwritable _ _ _ hn | sent _ _ _ hn =>
      exact changed rfl rfl (CommandQueue.next_item_inv hn).2.1
  | relay m => cases m <;> exact h.of_perm rfl (.refl _)
  | reclaimer hdr =>
    rw [hd] at hdr
    cases hdr
  | @begin r =>
    cases r with
    | bindCommands q =>
      simp only [permits, Bool.and_eq_true, decide_eq_true_eq, Bool.not_eq_true',
        List.contains_eq_mem, decide_eq_false_iff_not] at hp
      obtain ⟨⟨hlt, hopen⟩, hn⟩ := hp
      have hg : given { ch with calls := ch.calls ++ [Request.call (.bindCommands q)] } =
          ch.given ++ [q] := by
        simp [given, Request.call, Call.queue?]
      refine ⟨?_, fun k hk => ?_⟩
      · rw [hg, List.nodup_append]
        exact ⟨h.once, by simp, fun x hx y hy he =>
          hn (List.mem_singleton.1 hy ▸ he ▸ hx)⟩
      · rw [hg, List.mem_append, List.mem_singleton] at hk
        rcases hk with hk | rfl
        · exact h.known k hk
        · exact ⟨hlt, hopen⟩
    | connect | bindEvents | disable | close | drop =>
      refine h.of_perm rfl (.of_eq ?_)
      simp [given, Request.call, Call.queue?]
  | call hi m =>
    rcases m.given hi with ⟨hq, hg⟩ | ⟨q, hq, hg⟩
    · exact h.of_perm hq hg
    · exact h.refuse hq hg
  | makeQueue => exact h.feed rfl (by simp) fun k _ => by rw [queue_makeQueue]
  | command => exact changed rfl rfl (sendCommand_kept ..).1
  | dropSender => exact changed rfl rfl rfl
  | _ => exact h.of_perm rfl (.refl _)

/-! ## What is added to a queue -/

theorem fed_of_queues (h : ch'.queues = ch.queues) (ha : a.command? q = none) :
    (ch.queue q).Fed (ch'.queue q) (a.command? q).toList := by
  rw [queue_eq h, ha]
  exact .refl _

theorem fed_refuseQueue (h : ch'.queues = (ch.refuseQueue k).queues) (ha : a.command? q = none) :
    (ch'.queue q).isOpen = false ∨ (ch.queue q).Fed (ch'.queue q) (a.command? q).toList := by
  rw [queue_eq h, refuseQueue, queue_onQueue, ha]
  split
  · exact .inl rfl
  · exact .inr (.refl _)

theorem Move.fed_command {p : Payload} (hp : ch.permits (.command k p) = true) (q : QueueId) :
    ((ch.onQueue k (sendCommand p)).queue q).isOpen = false ∨
      (ch.queue q).Fed ((ch.onQueue k (sendCommand p)).queue q)
        ((Action.command k p).command? q).toList := by
  simp only [permits, Bool.and_eq_true, decide_eq_true_eq] at hp
  obtain ⟨hlt, hs⟩ := hp
  rw [queue_onQueue]
  by_cases hk : k = q
  · subst hk
    simp only [hlt, and_self, if_true, Action.command?, Option.toList_some]
    cases ho : (ch.queue k).isOpen with
    | false => exact .inl ((sendCommand_kept ..).1.trans ho)
    | true =>
      right
      simp only [sendCommand, CommandQueue.send_eq ho]
      exact ⟨rfl, rfl, fun hn => by rw [hs] at hn; cases hn⟩
  · rw [if_neg fun h => hk h.1]
    simp only [Action.command?, if_neg hk, Option.toList_none]
    exact .inr (.refl _)

/-- Unless the command producer takes from it, commands are added to a queue or it is closed. -/
theorem Move.fed (m : Move ch a ch') (ha : a ≠ .task .producer) (hd : ch.dropped = false)
    (hp : ch.permits a = true) (q : QueueId) :
    (ch'.queue q).isOpen = false ∨
      (ch.queue q).Fed (ch'.queue q) (a.command? q).toList := by
  cases m with
  | acceptor m => cases m <;> exact .inr (fed_of_queues rfl rfl)
  | verifier m =>
    right
    cases m with
    | wire _ m | wired _ m => exact fed_of_queues (by exact m.queues_eq) rfl
    | _ => exact fed_of_queues rfl rfl
  | consumer m => cases m <;> exact .inr (fed_of_queues rfl rfl)
  | producer => exact (ha rfl).elim
  | relay m => cases m <;> exact .inr (fed_of_queues rfl rfl)
  | reclaimer hdr =>
    rw [hd] at hdr
    cases hdr
  | call hi m =>
    rcases m.given hi with ⟨hq, -⟩ | ⟨k, hq, -⟩
    · exact .inr (fed_of_queues hq rfl)
    · exact fed_refuseQueue hq rfl
  | client hc =>
    right
    refine fed_of_queues rfl ?_
    cases a <;> first | rfl | cases hc
  | makeQueue =>
    right
    rw [queue_makeQueue]
    exact .refl _
  | @command k p => exact fed_command hp q
  | @dropSender k =>
    right
    rw [queue_onQueue]
    split
    · exact CommandQueue.fed_dropSender _
    · exact .refl _
  | _ => exact .inr (fed_of_queues rfl rfl)

/-! ## What stays in a queue -/

theorem keeps_sendCommand (p : Payload) (x : CommandQueue Payload) : x.Keeps (sendCommand p x) := by
  have ho := (sendCommand_kept p x).1
  refine ⟨fun h => ho ▸ h, fun h => ?_⟩
  rw [sendCommand, CommandQueue.send_eq (ho ▸ h)]
  exact List.prefix_append ..

theorem keeps_onQueue {f : CommandQueue Payload → CommandQueue Payload}
    (hf : ∀ x : CommandQueue Payload, x.Keeps (f x)) (k q : QueueId) :
    (ch.queue q).Keeps ((ch.onQueue k f).queue q) := by
  rw [queue_onQueue]
  split
  · exact hf _
  · exact .refl _

theorem keeps_of_queues (h : ch'.queues = ch.queues) (q : QueueId) :
    (ch.queue q).Keeps (ch'.queue q) := by
  rw [queue_eq h]
  exact .refl _

/-- Nobody but the command producer takes from a queue that is open. -/
theorem Move.keeps_queue (m : Move ch a ch') (ha : a ≠ .task .producer) (q : QueueId) :
    (ch.queue q).Keeps (ch'.queue q) := by
  cases m with
  | acceptor m => cases m <;> exact .refl _
  | verifier m =>
    cases m with
    | wire _ m | wired _ m => exact keeps_of_queues m.queues_eq q
    | _ => exact .refl _
  | consumer m => cases m <;> exact .refl _
  | producer => exact (ha rfl).elim
  | relay m => cases m <;> exact .refl _
  | reclaimer =>
    cases ch.commands with
    | none => exact .refl _
    | some k => exact keeps_onQueue CommandQueue.keeps_close k q
  | call hi m =>
    rcases m.given hi with ⟨hq, -⟩ | ⟨k, hq, -⟩
    · exact keeps_of_queues hq q
    · have hk : (ch.queue q).Keeps ((ch.onQueue k CommandQueue.close).queue q) :=
        keeps_onQueue CommandQueue.keeps_close k q
      rwa [← refuseQueue, ← queue_eq hq] at hk
  | makeQueue =>
    rw [queue_makeQueue]
    exact .refl _
  | command => exact keeps_onQueue (keeps_sendCommand _) _ q
  | dropSender => exact keeps_onQueue CommandQueue.keeps_dropSender _ q
  | _ => exact .refl _

end Channel

end WorkerLink
