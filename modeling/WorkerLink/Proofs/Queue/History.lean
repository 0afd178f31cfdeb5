import Mathlib.Data.List.Induction
import Mathlib.Data.List.TakeWhile
import WorkerLink.Script.Pieces

/-!
# What has come of a command queue

The steps on a queue with their replies are its history. From the history alone follow the commands
that were sent and those that were taken, and which senders are there (`IsThere`). The commands that
were taken and those still in the queue are the ones that were sent, in the order in which they were
sent, whoever sent them; and what is asked of the queue is answered by what is in it and by who is
there (`queue_accounts`).
-/

namespace WorkerLink.Script

open CommandQueue (Next)

variable {q : CommandQueue Json} {steps before more : List QueueStep} {s : QueueStep} {i : Nat}

/-- The queue after some steps. -/
def queueAfter (q : CommandQueue Json) (steps : List QueueStep) : CommandQueue Json :=
  steps.foldl (fun q s => (s.run q).2) q

/-- The steps on a queue, each with its reply. -/
def historyFrom (q : CommandQueue Json) (steps : List QueueStep) :
    List (QueueStep × QueueReply) :=
  steps.zip (runQueue.go q steps)

/-- The steps on a new queue, each with its reply. -/
def queueHistory (steps : List QueueStep) : List (QueueStep × QueueReply) :=
  steps.zip (runQueue steps)

/-- The reply to one more step on a new queue. -/
def replyBehind (steps : List QueueStep) (s : QueueStep) : QueueReply :=
  (s.run (queueAfter {} steps)).1

/-- The command that was sent by a step. -/
def sent? : QueueStep × QueueReply → Option Json
  | (.send _ v, .sent) => some v
  | _ => none

/-- The command that was taken by a step. -/
def returned? : QueueStep × QueueReply → Option Json
  | (.next, .taken (.item v)) => some v
  | _ => none

/-- The commands that were sent, in order. -/
def sentCommands (h : List (QueueStep × QueueReply)) : List Json := h.filterMap sent?

/-- The commands that were taken, in order. -/
def returnedCommands (h : List (QueueStep × QueueReply)) : List Json := h.filterMap returned?

/-- Whether a sender is there: it was from the start or was made since, and was not dropped. -/
def IsThere (h : List (QueueStep × QueueReply)) (i : Nat) : Prop :=
  (i = 0 ∨ ∃ j, (.cloneSender j, .cloned i) ∈ h) ∧ (.dropSender i, .dropped) ∉ h

/-- Whether a step leaves the taking side of a queue alone. -/
def QueueStep.keepsQueue : QueueStep → Bool
  | .dropQueue => false
  | _ => true

/-- The commands still in a queue; for one that was dropped, those that were in it then. -/
def queuedCommands (steps : List QueueStep) : List Json :=
  (queueAfter {} (steps.takeWhile QueueStep.keepsQueue)).items

/-! ## One step after the other -/

theorem queueAfter_append (q : CommandQueue Json) (steps more : List QueueStep) :
    queueAfter q (steps ++ more) = queueAfter (queueAfter q steps) more :=
  List.foldl_append ..

theorem queueAfter_concat (q : CommandQueue Json) (steps : List QueueStep) (s : QueueStep) :
    queueAfter q (steps ++ [s]) = (s.run (queueAfter q steps)).2 :=
  queueAfter_append ..

theorem historyFrom_cons (q : CommandQueue Json) (s : QueueStep) (steps : List QueueStep) :
    historyFrom q (s :: steps) = (s, (s.run q).1) :: historyFrom (s.run q).2 steps := rfl

theorem historyFrom_append (q : CommandQueue Json) (steps more : List QueueStep) :
    historyFrom q (steps ++ more) =
      historyFrom q steps ++ historyFrom (queueAfter q steps) more := by
  induction steps generalizing q with
  | nil => rfl
  | cons s steps ih =>
    rw [List.cons_append, historyFrom_cons, historyFrom_cons, ih, List.cons_append]
    rfl

theorem queueHistory_concat (steps : List QueueStep) (s : QueueStep) :
    queueHistory (steps ++ [s]) = queueHistory steps ++ [(s, replyBehind steps s)] :=
  historyFrom_append ..

theorem runQueue_concat (steps : List QueueStep) (s : QueueStep) :
    runQueue (steps ++ [s]) = runQueue steps ++ [replyBehind steps s] := by
  have go (q : CommandQueue Json) :
      runQueue.go q (steps ++ [s]) = runQueue.go q steps ++ [(s.run (queueAfter q steps)).1] := by
    induction steps generalizing q with
    | nil => rfl
    | cons t steps ih =>
      change (t.run q).1 :: runQueue.go (t.run q).2 (steps ++ [s]) = _
      rw [ih]
      rfl
  exact go {}

/-! ## What one step does -/

/-- What a step on a queue can be, with its reply. -/
inductive QueueMove (q : CommandQueue Json) :
    QueueStep → QueueReply → CommandQueue Json → Prop where
  | sent {i : Nat} {v : Json} (hi : q.hasSender i = true) (ho : q.isOpen = true) :
    QueueMove q (.send i v) .sent { q with items := q.items ++ [v] }
  | refused {i : Nat} {v : Json} (hi : q.hasSender i = true) (ho : q.isOpen = false) :
    QueueMove q (.send i v) (.refused .queueClosed) q
  | cloned {i : Nat} (hi : q.hasSender i = true) :
    QueueMove q (.cloneSender i) (.cloned q.senders.length) q.cloneSender
  | left {i : Nat} (hi : q.hasSender i = true) :
    QueueMove q (.dropSender i) .dropped (q.dropSender i)
  | noSender {s : QueueStep} {i : Nat}
      (hs : (∃ v, s = .send i v) ∨ s = .cloneSender i ∨ s = .dropSender i)
      (hi : q.hasSender i = false) : QueueMove q s .noSender q
  | closed (ho : q.isOpen = true) : QueueMove q .dropQueue .dropped q.close
  | item {v : Json} {rest : List Json} (ho : q.isOpen = true) (hq : q.items = v :: rest) :
    QueueMove q .next (.taken (.item v)) { q with items := rest }
  | pending (ho : q.isOpen = true) (hq : q.items = []) (hs : q.senders.any id = true) :
    QueueMove q .next (.taken .pending) q
  | exhausted (ho : q.isOpen = true) (hq : q.items = []) (hs : q.senders.any id = false) :
    QueueMove q .next (.taken .exhausted) q
  | noQueue {s : QueueStep} (hs : s = .dropQueue ∨ s = .next) (ho : q.isOpen = false) :
    QueueMove q s .noQueue q

theorem QueueStep.run_move (q : CommandQueue Json) (s : QueueStep) :
    QueueMove q s (s.run q).1 (s.run q).2 := by
  cases s with
  | send i v =>
    cases hi : q.hasSender i with
    | false => simpa [run, hi] using QueueMove.noSender (.inl ⟨v, rfl⟩) hi
    | true =>
      cases ho : q.isOpen with
      | true => simpa [run, hi, CommandQueue.send, ho] using QueueMove.sent (v := v) hi ho
      | false => simpa [run, hi, CommandQueue.send, ho] using QueueMove.refused (v := v) hi ho
  | cloneSender i =>
    cases hi : q.hasSender i with
    | false => simpa [run, hi] using QueueMove.noSender (.inr (.inl rfl)) hi
    | true => simpa [run, hi] using QueueMove.cloned hi
  | dropSender i =>
    cases hi : q.hasSender i with
    | false => simpa [run, hi] using QueueMove.noSender (.inr (.inr rfl)) hi
    | true => simpa [run, hi] using QueueMove.left hi
  | dropQueue =>
    cases ho : q.isOpen with
    | true => simpa [run, ho] using QueueMove.closed ho
    | false => simpa [run, ho] using QueueMove.noQueue (.inl rfl) ho
  | next =>
    cases ho : q.isOpen with
    | false => simpa [run, ho] using QueueMove.noQueue (.inr rfl) ho
    | true =>
      cases hq : q.items with
      | cons v rest => simpa [run, ho, CommandQueue.next, hq] using QueueMove.item ho hq
      | nil =>
        cases hs : q.senders.any id with
        | true => simpa [run, ho, CommandQueue.next, hq, hs] using QueueMove.pending ho hq hs
        | false => simpa [run, ho, CommandQueue.next, hq, hs] using QueueMove.exhausted ho hq hs

/-! ## The queue and its history -/

theorem any_senders_iff : q.senders.any id = true ↔ ∃ i, q.hasSender i = true := by
  simp only [CommandQueue.hasSender, List.any_eq_true, id, List.mem_iff_getElem?]
  constructor
  · rintro ⟨b, ⟨i, hi⟩, rfl⟩
    exact ⟨i, by simp [List.getD, hi]⟩
  · rintro ⟨i, hi⟩
    refine ⟨true, ⟨i, ?_⟩, rfl⟩
    cases hx : q.senders[i]? with
    | none => simp [List.getD, hx] at hi
    | some b =>
      simp only [List.getD, hx, Option.getD_some] at hi
      rw [hi]

theorem any_senders_eq_false_iff : q.senders.any id = false ↔ ∀ i, q.hasSender i = false := by
  rw [← Bool.not_eq_true, any_senders_iff, not_exists]
  exact forall_congr' fun i => by rw [Bool.not_eq_true]

/-- How a queue belongs to the steps that were taken on it and to their history. -/
structure Tallies (q : CommandQueue Json) (steps : List QueueStep)
    (h : List (QueueStep × QueueReply)) : Prop where
  open_iff : q.isOpen = true ↔ .dropQueue ∉ steps
  order : q.isOpen = true → returnedCommands h ++ q.items = sentCommands h
  there : ∀ i, q.hasSender i = true ↔ IsThere h i
  -- numbers of senders are given out once
  made : ∀ i j, (.cloneSender j, .cloned i) ∈ h → i < q.senders.length
  left : ∀ i, (.dropSender i, .dropped) ∈ h → i < q.senders.length
  first : 0 < q.senders.length

namespace Tallies

variable {h : List (QueueStep × QueueReply)} {r : QueueReply} {q' : CommandQueue Json}

theorem start : Tallies {} [] [] where
  open_iff := ⟨fun _ => List.not_mem_nil, fun _ => rfl⟩
  order _ := rfl
  there i := by
    cases i with
    | zero => simp [CommandQueue.hasSender, IsThere]
    | succ i => simp [CommandQueue.hasSender, IsThere]
  made _ _ hm := by cases hm
  left _ hm := by cases hm
  first := Nat.one_pos

theorem open_keeps (t : Tallies q steps h) (m : QueueMove q s r q') :
    q'.isOpen = true ↔ .dropQueue ∉ steps ++ [s] := by
  have same (ho : q'.isOpen = q.isOpen) (hs : s ≠ .dropQueue) :
      q'.isOpen = true ↔ .dropQueue ∉ steps ++ [s] := by
    rw [List.mem_append, List.mem_singleton, not_or, ho, t.open_iff]
    exact ⟨fun hn => ⟨hn, hs.symm⟩, And.left⟩
  cases m with
  | closed => simp [CommandQueue.close]
  | noSender hs =>
    rcases hs with ⟨v, rfl⟩ | rfl | rfl <;> exact same rfl nofun
  | noQueue hs ho =>
    have hd : .dropQueue ∈ steps := by
      by_contra hn
      rw [t.open_iff.2 hn] at ho
      cases ho
    simp [ho, hd]
  | _ => exact same rfl nofun

theorem order_keeps (t : Tallies q steps h) (m : QueueMove q s r q') (ho : q'.isOpen = true) :
    returnedCommands (h ++ [(s, r)]) ++ q'.items = sentCommands (h ++ [(s, r)]) := by
  have order := t.order
  simp only [returnedCommands, sentCommands, List.filterMap_append] at order ⊢
  have quiet (hs : sent? (s, r) = none) (hr : returned? (s, r) = none) (hi : q'.items = q.items)
      (hq : q.isOpen = true) :
      h.filterMap returned? ++ [(s, r)].filterMap returned? ++ q'.items =
        h.filterMap sent? ++ [(s, r)].filterMap sent? := by
    rw [List.filterMap_cons_none hs, List.filterMap_cons_none hr, List.filterMap_nil,
      List.filterMap_nil, List.append_nil, List.append_nil, hi, order hq]
  cases m with
  | sent _ hq =>
    rw [← order hq]
    simp [returned?, sent?]
  | item hq hi =>
    rw [hi] at order
    rw [← order hq]
    simp [returned?, sent?]
  | closed => cases ho
  | noSender hs =>
    rcases hs with ⟨v, rfl⟩ | rfl | rfl <;> exact quiet rfl rfl rfl ho
  | noQueue hs hn =>
    rw [hn] at ho
    cases ho
  | _ => exact quiet rfl rfl rfl ho

/-- A step that neither makes nor drops a sender changes nothing about them. -/
theorem senders_keep (t : Tallies q steps h) (hs : q'.senders = q.senders)
    (hc : ∀ i j, (QueueStep.cloneSender j, QueueReply.cloned i) ≠ (s, r))
    (hd : ∀ i, (QueueStep.dropSender i, QueueReply.dropped) ≠ (s, r)) :
    (∀ i, q'.hasSender i = true ↔ IsThere (h ++ [(s, r)]) i) ∧
    (∀ i j, (.cloneSender j, .cloned i) ∈ h ++ [(s, r)] → i < q'.senders.length) ∧
    (∀ i, (.dropSender i, .dropped) ∈ h ++ [(s, r)] → i < q'.senders.length) ∧
    0 < q'.senders.length := by
  simp only [IsThere, List.mem_append, List.mem_singleton, hc, hd, or_false,
    CommandQueue.hasSender, hs]
  exact ⟨t.there, t.made, t.left, t.first⟩

theorem senders_keeps (t : Tallies q steps h) (m : QueueMove q s r q') :
    (∀ i, q'.hasSender i = true ↔ IsThere (h ++ [(s, r)]) i) ∧
    (∀ i j, (.cloneSender j, .cloned i) ∈ h ++ [(s, r)] → i < q'.senders.length) ∧
    (∀ i, (.dropSender i, .dropped) ∈ h ++ [(s, r)] → i < q'.senders.length) ∧
    0 < q'.senders.length := by
  cases m with
  | @cloned k hk =>
    have hlen : q.cloneSender.senders.length = q.senders.length + 1 := by
      simp [CommandQueue.cloneSender]
    refine ⟨fun i => ?_, fun i j hm => ?_, fun i hm => ?_, by omega⟩
    · by_cases hi : i = q.senders.length
      · -- the number of the new sender was never given out, so it was never dropped
        subst hi
        have hleft : (.dropSender q.senders.length, .dropped) ∉ h := fun hm =>
          Nat.lt_irrefl _ (t.left _ hm)
        simp [IsThere, CommandQueue.hasSender, CommandQueue.cloneSender, hleft]
      · have hsame : q.cloneSender.hasSender i = q.hasSender i := by
          simp only [CommandQueue.hasSender, CommandQueue.cloneSender, List.getD_eq_getElem?_getD]
          rcases Nat.lt_or_gt_of_ne hi with hlt | hgt
          · rw [List.getElem?_append_left hlt]
          · rw [List.getElem?_eq_none (by simp; omega), List.getElem?_eq_none (by omega)]
        rw [hsame, t.there]
        simp [IsThere, hi]
    · rw [List.mem_append, List.mem_singleton] at hm
      rcases hm with hm | hm
      · exact Nat.lt_of_lt_of_le (t.made i j hm) (by omega)
      · cases hm
        omega
    · rw [List.mem_append, List.mem_singleton] at hm
      rcases hm with hm | hm
      · exact Nat.lt_of_lt_of_le (t.left i hm) (by omega)
      · cases hm
  | @left k hk =>
    have hlen : (q.dropSender k).senders.length = q.senders.length := by
      simp [CommandQueue.dropSender]
    have hlt : k < q.senders.length := by
      by_contra hn
      simp [CommandQueue.hasSender, List.getD, List.getElem?_eq_none (Nat.not_lt.1 hn)] at hk
    refine ⟨fun i => ?_, fun i j hm => ?_, fun i hm => ?_, by rw [hlen]; exact t.first⟩
    · by_cases hi : i = k
      · subst hi
        simp [IsThere, CommandQueue.hasSender, CommandQueue.dropSender, hlt]
      · have hsame : (q.dropSender k).hasSender i = q.hasSender i := by
          simp [CommandQueue.hasSender, CommandQueue.dropSender, List.getD_eq_getElem?_getD,
            List.getElem?_set_ne (Ne.symm hi)]
        rw [hsame, t.there]
        simp [IsThere, hi]
    · rw [List.mem_append, List.mem_singleton] at hm
      rw [hlen]
      exact t.made i j (hm.resolve_right fun hn => by cases hn)
    · rw [List.mem_append, List.mem_singleton] at hm
      rw [hlen]
      rcases hm with hm | hm
      · exact t.left i hm
      · cases hm
        exact hlt
  | _ => exact t.senders_keep rfl (by simp) (by simp)

theorem keeps (t : Tallies q steps h) (m : QueueMove q s r q') :
    Tallies q' (steps ++ [s]) (h ++ [(s, r)]) := by
  obtain ⟨there, made, left, first⟩ := t.senders_keeps m
  exact ⟨t.open_keeps m, t.order_keeps m, there, made, left, first⟩

/-- Whatever is done to a queue, its history accounts for it. -/
theorem of_steps (steps : List QueueStep) :
    Tallies (queueAfter {} steps) steps (queueHistory steps) := by
  induction steps using List.reverseRecOn with
  | nil => exact start
  | append_singleton steps s ih =>
    rw [queueAfter_concat, queueHistory_concat]
    exact ih.keeps (s.run_move _)

end Tallies

/-! ## Once the queue is dropped, or exhausted -/

theorem QueueMove.still_closed {r : QueueReply} {q' : CommandQueue Json} (m : QueueMove q s r q')
    (ho : q.isOpen = false) :
    q'.isOpen = false ∧ sent? (s, r) = none ∧ returned? (s, r) = none := by
  cases m with
  | sent _ hq | closed hq | item hq | pending hq | exhausted hq =>
    rw [ho] at hq
    cases hq
  | refused | cloned | left => exact ⟨ho, rfl, rfl⟩
  | noSender hs =>
    rcases hs with ⟨v, rfl⟩ | rfl | rfl <;> exact ⟨ho, rfl, rfl⟩
  | noQueue hs =>
    rcases hs with rfl | rfl <;> exact ⟨ho, rfl, rfl⟩

/-- Nothing is sent to a queue that was dropped, and nothing is taken from it. -/
theorem historyFrom_closed (ho : q.isOpen = false) (steps : List QueueStep) :
    sentCommands (historyFrom q steps) = [] ∧ returnedCommands (historyFrom q steps) = [] := by
  induction steps generalizing q with
  | nil => exact ⟨rfl, rfl⟩
  | cons s steps ih =>
    obtain ⟨ho', hs, hr⟩ := (s.run_move q).still_closed ho
    rw [historyFrom_cons, sentCommands, returnedCommands, List.filterMap_cons_none hs,
      List.filterMap_cons_none hr]
    exact ih ho'

/-- With a queue that is dropped its history of commands comes to an end. -/
theorem queueHistory_dropped (h : .dropQueue ∉ before) (more : List QueueStep) :
    sentCommands (queueHistory (before ++ .dropQueue :: more)) =
        sentCommands (queueHistory before) ∧
      returnedCommands (queueHistory (before ++ .dropQueue :: more)) =
        returnedCommands (queueHistory before) := by
  have ho := (Tallies.of_steps before).open_iff.2 h
  have hh : queueHistory (before ++ .dropQueue :: more) = queueHistory before ++
      (.dropQueue, .dropped) :: historyFrom (queueAfter {} before).close more := by
    have happ := historyFrom_append {} before (.dropQueue :: more)
    rwa [historyFrom_cons, QueueStep.run, if_pos ho] at happ
  have hclosed : (queueAfter {} before).close.isOpen = false := rfl
  obtain ⟨hs, hr⟩ := historyFrom_closed hclosed more
  rw [hh, sentCommands, returnedCommands, List.filterMap_append, List.filterMap_append,
    List.filterMap_cons_none rfl, List.filterMap_cons_none rfl, ← sentCommands, ← sentCommands,
    ← returnedCommands, ← returnedCommands, hs, hr, List.append_nil, List.append_nil]
  exact ⟨rfl, rfl⟩

/-- The steps up to the one that drops the queue, and those behind it. -/
theorem split_at_drop (h : .dropQueue ∈ steps) :
    ∃ more, steps = steps.takeWhile QueueStep.keepsQueue ++ .dropQueue :: more := by
  have hsplit := List.takeWhile_append_dropWhile (p := QueueStep.keepsQueue) (l := steps)
  cases hd : steps.dropWhile QueueStep.keepsQueue with
  | nil =>
    have hall := List.dropWhile_eq_nil_iff.1 hd _ h
    cases hall
  | cons s more =>
    have hs : s.keepsQueue = false := by
      have hhead := List.head?_dropWhile_not QueueStep.keepsQueue steps
      rw [hd] at hhead
      simpa using hhead
    cases s with
    | dropQueue => exact ⟨more, by rw [← hd, hsplit]⟩
    | _ => cases hs

theorem takeWhile_keepsQueue (h : .dropQueue ∉ steps) :
    steps.takeWhile QueueStep.keepsQueue = steps := by
  refine List.takeWhile_eq_self_iff.2 fun s hs => ?_
  cases s with
  | dropQueue => exact (h hs).elim
  | _ => rfl

theorem dropQueue_notMem_takeWhile (steps : List QueueStep) :
    .dropQueue ∉ steps.takeWhile QueueStep.keepsQueue := fun h => by
  have hk := List.mem_takeWhile_imp h
  cases hk

/-- Nothing happens any more to a queue without commands and senders, unless it is dropped. -/
theorem queueAfter_exhausted (hq : q.items = []) (hs : ∀ i, q.hasSender i = false)
    (hm : .dropQueue ∉ more) : queueAfter q more = q := by
  induction more with
  | nil => rfl
  | cons s more ih =>
    have hstep : (s.run q).2 = q := by
      generalize hr : (s.run q).1 = r
      have m := s.run_move q
      rw [hr] at m
      generalize (s.run q).2 = q' at m
      cases m with
      | sent hi | cloned hi | left hi => simp [hs] at hi
      | closed => simp at hm
      | item _ hi => simp [hq] at hi
      | _ => rfl
    change queueAfter (s.run q).2 more = q
    rw [hstep]
    exact ih fun h => hm (List.mem_cons_of_mem _ h)

/-! ## What every queue answers -/

/-- What a new queue makes of some steps, and how it answers the step behind them. -/
structure QueueAccounts (steps : List QueueStep) : Prop where
  replies s : runQueue (steps ++ [s]) = runQueue steps ++ [replyBehind steps s]
  /-- Nothing is lost, repeated or put in another order. -/
  order : returnedCommands (queueHistory steps) ++ queuedCommands steps =
    sentCommands (queueHistory steps)
  item : .dropQueue ∉ steps → ∀ v,
    (replyBehind steps .next = .taken (.item v) ↔ (queuedCommands steps).head? = some v)
  pending : .dropQueue ∉ steps → (replyBehind steps .next = .taken .pending ↔
    queuedCommands steps = [] ∧ ∃ i, IsThere (queueHistory steps) i)
  exhausted : .dropQueue ∉ steps → (replyBehind steps .next = .taken .exhausted ↔
    queuedCommands steps = [] ∧ ∀ i, ¬IsThere (queueHistory steps) i)
  /-- An exhausted queue stays exhausted as long as it can be asked. -/
  forever : replyBehind steps .next = .taken .exhausted → ∀ more, .dropQueue ∉ more →
    replyBehind (steps ++ more) .next = .taken .exhausted
  sent i v : IsThere (queueHistory steps) i →
    (replyBehind steps (.send i v) = .sent ↔ .dropQueue ∉ steps)
  refused i v : IsThere (queueHistory steps) i →
    ((∃ e, replyBehind steps (.send i v) = .refused e) ↔ .dropQueue ∈ steps)
  /-- A command that is refused leaves no trace. -/
  untouched i v e : replyBehind steps (.send i v) = .refused e →
    e.kind = .brokenPipe ∧ queueAfter {} (steps ++ [.send i v]) = queueAfter {} steps

/-- What is asked of a queue that is there is answered by its commands and its senders. -/
theorem QueueMove.answers {r : QueueReply} {q' : CommandQueue Json} (m : QueueMove q .next r q')
    (ho : q.isOpen = true) :
    (∀ v, r = .taken (.item v) ↔ q.items.head? = some v) ∧
      (r = .taken .pending ↔ q.items = [] ∧ ∃ i, q.hasSender i = true) ∧
      (r = .taken .exhausted ↔ q.items = [] ∧ ∀ i, q.hasSender i = false) := by
  rw [← any_senders_iff, ← any_senders_eq_false_iff]
  cases m with
  | noSender hs => rcases hs with ⟨v, hs⟩ | hs | hs <;> cases hs
  | noQueue _ hn =>
    rw [ho] at hn
    cases hn
  | item _ hq => simp [hq]
  | pending _ hq hs => simp [hq, hs]
  | exhausted _ hq hs => simp [hq, hs]

/-- A sender that is there is refused if the queue is not. -/
theorem QueueMove.send_cases {v : Json} {r : QueueReply} {q' : CommandQueue Json}
    (m : QueueMove q (.send i v) r q') (hi : q.hasSender i = true) :
    q.isOpen = true ∧ r = .sent ∨ q.isOpen = false ∧ r = .refused .queueClosed := by
  cases m with
  | sent _ ho => exact .inl ⟨ho, rfl⟩
  | refused _ ho => exact .inr ⟨ho, rfl⟩
  | noSender hs hn =>
    rcases hs with ⟨w, hs⟩ | hs | hs <;> cases hs
    rw [hi] at hn
    cases hn
  | noQueue hs => rcases hs with hs | hs <;> cases hs

theorem queuedCommands_of_notMem (h : .dropQueue ∉ steps) :
    queuedCommands steps = (queueAfter {} steps).items := by
  rw [queuedCommands, takeWhile_keepsQueue h]

/-- The commands that were taken and those still in the queue are the ones that were sent. -/
theorem returned_append_queued (steps : List QueueStep) :
    returnedCommands (queueHistory steps) ++ queuedCommands steps =
      sentCommands (queueHistory steps) := by
  by_cases hd : .dropQueue ∈ steps
  · obtain ⟨more, hsplit⟩ := split_at_drop hd
    have hn := dropQueue_notMem_takeWhile steps
    have t := Tallies.of_steps (steps.takeWhile QueueStep.keepsQueue)
    obtain ⟨hs, hr⟩ := queueHistory_dropped hn more
    rw [← hsplit] at hs hr
    rw [hs, hr]
    exact t.order (t.open_iff.2 hn)
  · have t := Tallies.of_steps steps
    rw [queuedCommands_of_notMem hd]
    exact t.order (t.open_iff.2 hd)

/-- For any steps on a queue, whoever sends: the commands that were taken, and then those still in
the queue, are the ones that were sent, in order. The next command is asked for in vain exactly if
none is in the queue, for good exactly if no sender is there either. Sending fails exactly if the
queue was dropped, and changes nothing then. -/
theorem queue_accounts (steps : List QueueStep) : QueueAccounts steps where
  replies := runQueue_concat steps
  order := returned_append_queued steps
  item hd v := by
    have t := Tallies.of_steps steps
    rw [queuedCommands_of_notMem hd]
    exact ((QueueStep.run_move _ .next).answers (t.open_iff.2 hd)).1 v
  pending hd := by
    have t := Tallies.of_steps steps
    simp only [queuedCommands_of_notMem hd, ← t.there]
    exact ((QueueStep.run_move _ .next).answers (t.open_iff.2 hd)).2.1
  exhausted hd := by
    have t := Tallies.of_steps steps
    simp only [queuedCommands_of_notMem hd, ← t.there, Bool.not_eq_true]
    exact ((QueueStep.run_move _ .next).answers (t.open_iff.2 hd)).2.2
  forever hr more hm := by
    have ho : (queueAfter {} steps).isOpen = true := by
      by_contra hn
      simp [replyBehind, QueueStep.run, hn] at hr
    obtain ⟨hq, hs⟩ := ((QueueStep.run_move _ .next).answers ho).2.2.1 hr
    rw [replyBehind, queueAfter_append, queueAfter_exhausted hq hs hm]
    exact hr
  sent i v hi := by
    have t := Tallies.of_steps steps
    rw [← t.open_iff, replyBehind]
    rcases (QueueStep.run_move _ (.send i v)).send_cases ((t.there i).2 hi)
      with ⟨ho, hr⟩ | ⟨ho, hr⟩
    · simp [hr, ho]
    · simp [hr, ho]
  refused i v hi := by
    have t := Tallies.of_steps steps
    have hopen := t.open_iff
    rw [replyBehind]
    rcases (QueueStep.run_move _ (.send i v)).send_cases ((t.there i).2 hi)
      with ⟨ho, hr⟩ | ⟨ho, hr⟩
    · simpa [hr] using hopen.1 ho
    · simpa [hr, ho] using hopen
  untouched i v e hr := by
    rw [queueAfter_concat]
    have m := QueueStep.run_move (queueAfter {} steps) (.send i v)
    change ((QueueStep.send i v).run (queueAfter {} steps)).1 = .refused e at hr
    rw [hr] at m
    generalize ((QueueStep.send i v).run (queueAfter {} steps)).2 = q' at m ⊢
    cases m with
    | refused => exact ⟨rfl, rfl⟩

end WorkerLink.Script
