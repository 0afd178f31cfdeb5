import WorkerLink.Proofs.Frame.Values
import WorkerLink.Proofs.Network.Streams
import WorkerLink.Script.Worker

/-!
# What a worker puts on its connection

A worker that has connected emits values in any order with whatever else happens at its connection.
A value that refuses to be written or has too long a text gives an error, and leaves the worker and
the connection as they were (`WorkerStep.run_refused`). So what the controller receives, as long as
it does not give up, are the token and the frames of the other values (`accepted_values_arrive`).
-/

namespace WorkerLink.Script

variable {c : Codec} {w : Worker} {l : Link} {s : WorkerStep} {steps : List WorkerStep}
  {sent got : Bytes}

/-- The text of a value that is accepted. -/
def acceptedText? (c : Codec) : Payload → Option Bytes
  | .value v => if v.bytes.length ≤ c.longest then some v.bytes else none
  | .refusing _ => none

/-- The value that a step emits. -/
def WorkerStep.payload? : WorkerStep → Option Payload
  | .emit p => some p
  | _ => none

/-- Whether a step emits a value that is refused. -/
def WorkerStep.isRefused (c : Codec) : WorkerStep → Bool
  | .emit p => (acceptedText? c p).isNone
  | _ => false

/-- The frames of the accepted values, in order. -/
def acceptedFrames (c : Codec) (steps : List WorkerStep) : Bytes :=
  ((steps.filterMap WorkerStep.payload?).filterMap (acceptedText? c)).flatMap Codec.frame

/-- The bytes that a reply hands to the controller. -/
def WorkerReply.data : WorkerReply → Bytes
  | .received b _ => b
  | _ => []

/-- All bytes that the controller has received. -/
def receivedBytes (replies : List WorkerReply) : Bytes := replies.flatMap WorkerReply.data

/-- What a worker is told of a value that it emits. -/
inductive Replies (c : Codec) : WorkerStep → WorkerReply → Prop where
  | accepted {v : Json} (h : v.bytes.length ≤ c.longest) : Replies c (.emit (.value v)) .ok
  | tooLong {v : Json} (h : c.longest < v.bytes.length) :
    Replies c (.emit (.value v)) (.failed .frameTooLong)
  | refusing {reason : String} :
    Replies c (.emit (.refusing reason)) (.failed (.unwritable reason))
  | other {s : WorkerStep} {r : WorkerReply} (h : s.payload? = none) : Replies c s r

/-! ## Running steps -/

/-- The worker and its connection after some steps. -/
def workerAfter (w : Worker) (l : Link) (steps : List WorkerStep) : Worker × Link :=
  steps.foldl (fun x s => (s.run x.1 x.2).2) (w, l)

theorem runWorker_cons (w : Worker) (l : Link) (s : WorkerStep) (steps : List WorkerStep) :
    runWorker w l (s :: steps) =
      (s.run w l).1 :: runWorker (s.run w l).2.1 (s.run w l).2.2 steps := rfl

theorem runWorker_append (w : Worker) (l : Link) (steps more : List WorkerStep) :
    runWorker w l (steps ++ more) = runWorker w l steps ++
      runWorker (workerAfter w l steps).1 (workerAfter w l steps).2 more := by
  induction steps generalizing w l with
  | nil => rfl
  | cons s steps ih =>
    rw [List.cons_append, runWorker_cons, runWorker_cons, ih, List.cons_append]
    rfl

theorem length_runWorker (w : Worker) (l : Link) (steps : List WorkerStep) :
    (runWorker w l steps).length = steps.length := by
  induction steps generalizing w l with
  | nil => rfl
  | cons s steps ih => rw [runWorker_cons, List.length_cons, List.length_cons, ih]

/-! ## One step -/

/-- The worker has sent `sent`, nothing is left for later, and the controller has taken `got`. -/
structure Writes (c : Codec) (sent got : Bytes) (w : Worker) (l : Link) : Prop where
  codec : w.codec = c
  unsent : w.unsent = []
  opened : l.inbound.isWritable = true
  sent : l.inbound.written = sent
  got : l.inbound.taken = got

theorem encode_of_refused {p : Payload} (h : acceptedText? c p = none) :
    ∃ e, c.encode p = .error e ∧ Replies c (.emit p) (.failed e) := by
  cases p with
  | refusing reason => exact ⟨_, rfl, .refusing⟩
  | value v =>
    have hlt : c.longest < v.bytes.length := by
      by_contra hn
      rw [acceptedText?, if_pos (Nat.not_lt.1 hn)] at h
      cases h
    exact ⟨.frameTooLong, Codec.wrap_of_lt hlt, .tooLong hlt⟩

theorem encode_of_accepted {p : Payload} {t : Bytes} (h : acceptedText? c p = some t) :
    c.encode p = .ok (Codec.frame t) ∧ Replies c (.emit p) .ok := by
  cases p with
  | refusing reason => cases h
  | value v =>
    rw [acceptedText?] at h
    split at h
    · rename_i hle
      cases h
      exact ⟨Codec.wrap_of_le hle, .accepted hle⟩
    · cases h

/-- A value that is refused leaves the worker and its connection as they were. -/
theorem WorkerStep.run_refused (h : Writes c sent got w l) (hr : s.isRefused c = true) :
    ∃ e, s.run w l = (.failed e, w, l) ∧ Replies c s (.failed e) := by
  cases s with
  | emit p =>
    obtain ⟨e, he, hreply⟩ := encode_of_refused (Option.isNone_iff_eq_none.1 hr)
    refine ⟨e, ?_, hreply⟩
    simp [run, Worker.emit, h.unsent, Worker.unsentLimit, Worker.send, h.codec, he]
  | _ => cases hr

namespace Writes

theorem greet (d : Descriptor) (limit : Nat) :
    Writes { limit } (Worker.greeting d) [] (.ofLimit limit)
      (Channel.clientSend {} (Worker.greeting d)) :=
  ⟨rfl, rfl, rfl, rfl, rfl⟩

/-- What neither emits nor takes bytes of the worker leaves them alone. -/
theorem quiet {w' : Worker} {l' : Link} (h : Writes c sent got w l) (hc : w'.codec = w.codec)
    (hu : w'.unsent = w.unsent) (hl : l'.inbound = l.inbound) :
    Writes c (sent ++ []) (got ++ []) w' l' := by
  rw [List.append_nil, List.append_nil]
  exact ⟨hc.trans h.codec, hu.trans h.unsent, hl ▸ h.opened, hl ▸ h.sent, hl ▸ h.got⟩

/-- The frame of an accepted value goes behind what was sent. -/
theorem emit {p : Payload} {t : Bytes} (h : Writes c sent got w l)
    (ht : acceptedText? c p = some t) :
    ((WorkerStep.emit p).run w l).1 = .ok ∧
      Writes c (sent ++ Codec.frame t) got ((WorkerStep.emit p).run w l).2.1
        ((WorkerStep.emit p).run w l).2.2 := by
  obtain ⟨he, -⟩ := encode_of_accepted ht
  have hwrite : l.inbound.write (Codec.frame t) = .ok { l.inbound with
      unread := l.inbound.unread ++ Codec.frame t } := by
    rw [Stream.write, if_pos h.opened]
  have hrun : (WorkerStep.emit p).run w l = (.ok, { w with unsent := [] },
      { l with inbound := { l.inbound with
        unread := l.inbound.unread ++ Codec.frame t } }) := by
    simp [WorkerStep.run, Worker.emit, h.unsent, Worker.unsentLimit, Worker.send, h.codec, he,
      Worker.flush, hwrite]
  rw [hrun]
  refine ⟨rfl, h.codec, rfl, h.opened, ?_, h.got⟩
  rw [← h.sent]
  simp [Stream.written]

/-- The controller receives what it has not received of what was sent. -/
theorem fetch (h : Writes c sent got w l) :
    got ++ l.inbound.unread = sent ∧ Writes c sent sent w (WorkerStep.fetch.run w l).2.2 := by
  have hall : got ++ l.inbound.unread = sent := by rw [← h.got, ← h.sent, Stream.written]
  refine ⟨hall, h.codec, h.unsent, ?_, ?_, ?_⟩
  · exact (Stream.isWritable_receive _ _).trans h.opened
  · exact (Stream.written_receive _ _).trans h.sent
  · exact (Stream.taken_receiveAll _).trans h.sent

/-- Each step but giving up tells the worker of its value, puts the frame of an accepted one behind
what was sent, and hands the controller what it takes. -/
theorem step (h : Writes c sent got w l) (hs : s ≠ .close) :
    Replies c s (s.run w l).1 ∧
      Writes c (sent ++ acceptedFrames c [s]) (got ++ (s.run w l).1.data)
        (s.run w l).2.1 (s.run w l).2.2 := by
  cases s with
  | emit p =>
    cases ht : acceptedText? c p with
    | none =>
      obtain ⟨e, hrun, hreply⟩ := WorkerStep.run_refused h (s := .emit p)
        (by simp [WorkerStep.isRefused, ht])
      rw [hrun]
      simpa [acceptedFrames, WorkerStep.payload?, ht, WorkerReply.data] using ⟨hreply, h⟩
    | some t =>
      obtain ⟨hok, hw⟩ := h.emit ht
      have hreply := (encode_of_accepted ht).2
      rw [hok]
      simpa [acceptedFrames, WorkerStep.payload?, ht, WorkerReply.data] using ⟨hreply, hw⟩
  | fetch =>
    obtain ⟨hall, hw⟩ := h.fetch
    refine ⟨.other rfl, ?_⟩
    change Writes c (sent ++ []) (got ++ l.inbound.unread) w (WorkerStep.fetch.run w l).2.2
    rwa [hall, List.append_nil]
  | close => exact (hs rfl).elim
  | feed b =>
    rw [WorkerStep.run]
    split <;> exact ⟨.other rfl, h.quiet rfl rfl rfl⟩
  | next =>
    have hdata : (WorkerStep.next.run w l).1.data = [] := by
      change (WorkerReply.ofProgress (w.next l).1).data = []
      cases (w.next l).1 <;> rfl
    rw [hdata]
    exact ⟨.other rfl, h.quiet rfl rfl rfl⟩
  | finish => exact ⟨.other rfl, h.quiet rfl rfl rfl⟩

theorem acceptedFrames_cons (c : Codec) (s : WorkerStep) (steps : List WorkerStep) :
    acceptedFrames c (s :: steps) = acceptedFrames c [s] ++ acceptedFrames c steps := by
  simp only [acceptedFrames, ← List.flatMap_append, ← List.filterMap_append]
  rfl

/-- As long as the controller does not give up, every step keeps to what was sent. -/
theorem run (h : Writes c sent got w l) (hs : .close ∉ steps) :
    List.Forall₂ (Replies c) steps (runWorker w l steps) ∧
      Writes c (sent ++ acceptedFrames c steps) (got ++ receivedBytes (runWorker w l steps))
        (workerAfter w l steps).1 (workerAfter w l steps).2 := by
  induction steps generalizing w l sent got with
  | nil =>
    refine ⟨.nil, ?_⟩
    change Writes c (sent ++ []) (got ++ []) w l
    rwa [List.append_nil, List.append_nil]
  | cons s steps ih =>
    obtain ⟨hreply, hw⟩ := h.step fun he => hs (List.mem_cons.2 (.inl he.symm))
    obtain ⟨hreplies, hrun⟩ := ih hw fun hm => hs (List.mem_cons_of_mem _ hm)
    refine ⟨.cons hreply hreplies, ?_⟩
    rwa [List.append_assoc, List.append_assoc, ← acceptedFrames_cons] at hrun

/-- Without the values that are refused everything goes on as it did with them. -/
theorem run_filter (h : Writes c sent got w l) (hs : .close ∉ steps) :
    runWorker w l (steps.filter (!·.isRefused c)) =
      ((steps.zip (runWorker w l steps)).filter (!·.1.isRefused c)).map Prod.snd := by
  induction steps generalizing w l sent got with
  | nil => rfl
  | cons s steps ih =>
    obtain ⟨-, hw⟩ := h.step fun he => hs (List.mem_cons.2 (.inl he.symm))
    have htail := ih hw fun hm => hs (List.mem_cons_of_mem _ hm)
    rw [runWorker_cons, List.zip_cons_cons]
    cases hr : s.isRefused c with
    | true =>
      obtain ⟨e, hrun, -⟩ := WorkerStep.run_refused h hr
      rw [hrun] at htail ⊢
      simpa [hr] using htail
    | false => simpa [hr, runWorker_cons] using htail

end Writes

/-! ## What the controller receives -/

theorem connectWorker_ok {m : Machine} {listening : Option (IpAddress × UInt16)}
    {source : DescriptorSource} {limit : Nat} {replies : List WorkerReply}
    (h : connectWorker m listening source limit steps = .ok replies) :
    ∃ d, source.read = .ok d ∧ ∀ steps, connectWorker m listening source limit steps =
      .ok (runWorker (.ofLimit limit) (Channel.clientSend {} (Worker.greeting d)) steps) := by
  unfold connectWorker at h ⊢
  cases hd : source.read with
  | error e =>
    rw [hd] at h
    cases h
  | ok d =>
    refine ⟨d, rfl, fun steps => ?_⟩
    rw [hd] at h
    simp only [bind, Except.bind] at h ⊢
    split at h
    · cases h
    · split at h
      · cases h
      · rename_i hf hl
        exact if_neg hl

/-- What comes of steps on a connection, given the replies. -/
structure Arrives (d : Descriptor) (c : Codec) (steps : List WorkerStep)
    (replies : List WorkerReply) : Prop where
  /-- Each refused value gives its error, each accepted one gives none. -/
  replied : List.Forall₂ (Replies c) steps replies
  /-- Whenever the controller takes what is there, it has the token and the frames so far. -/
  received before more : steps = before ++ .fetch :: more →
    receivedBytes (replies.take (before.length + 1)) = d.session.bytes ++ acceptedFrames c before

theorem arrives_of_writes {d : Descriptor} (h : Writes c d.session.bytes [] w l)
    (hs : .close ∉ steps) : Arrives d c steps (runWorker w l steps) where
  replied := (h.run hs).1
  received before more hsplit := by
    subst hsplit
    obtain ⟨-, hw⟩ := h.run fun hm => hs (List.mem_append_left _ hm)
    rw [runWorker_append, runWorker_cons, List.take_append, length_runWorker,
      List.take_of_length_le (by rw [length_runWorker]; omega), Nat.add_sub_cancel_left,
      List.take_succ_cons, List.take_zero, receivedBytes, List.flatMap_append,
      List.flatMap_singleton]
    exact hw.fetch.1

/-- Whatever a worker emits once it is connected, and whatever else happens on the connection as
long as the controller keeps it: the controller receives the token and the frames of the accepted
values, in order. A value that is refused gives an error, and the other steps come to the same with
it as without it. What happens later, the end of the connection included, changes nothing. -/
theorem accepted_values_arrive {m : Machine} {listening : Option (IpAddress × UInt16)}
    {source : DescriptorSource} {limit : Nat} {replies : List WorkerReply}
    (h : connectWorker m listening source limit steps = .ok replies) (hs : .close ∉ steps) :
    ∃ d, source.read = .ok d ∧ Arrives d { limit } steps replies ∧
      connectWorker m listening source limit (steps.filter (!·.isRefused { limit })) =
        .ok (((steps.zip replies).filter (!·.1.isRefused { limit })).map Prod.snd) ∧
      (∃ b, connectWorker m listening source limit (steps ++ [.fetch]) =
          .ok (replies ++ [.received b false]) ∧
        receivedBytes replies ++ b = d.session.bytes ++ acceptedFrames { limit } steps) ∧
      ∀ more, ∃ late, connectWorker m listening source limit (steps ++ more) =
        .ok (replies ++ late) := by
  obtain ⟨d, hd, hrun⟩ := connectWorker_ok h
  have hw := Writes.greet d limit
  obtain rfl : replies = runWorker _ _ steps := by
    rw [hrun] at h
    cases h
    rfl
  refine ⟨d, hd, arrives_of_writes hw hs, ?_, ?_, fun more => ?_⟩
  · rw [hrun, hw.run_filter hs]
  · obtain ⟨-, hafter⟩ := hw.run hs
    have hended := (Bool.and_eq_true_iff.1 hafter.opened).1
    rw [Bool.not_eq_true'] at hended
    refine ⟨_, ?_, hafter.fetch.1⟩
    rw [hrun, runWorker_append, runWorker_cons, WorkerStep.run, hended]
    rfl
  · exact ⟨_, by rw [hrun, runWorker_append]⟩

/-! ## A run -/

def exampleSource : DescriptorSource := .text "tcp://127.0.0.1:4000?sessionId=abc"

/-- Values that are accepted and values that are refused. -/
def exampleSteps : List WorkerStep :=
  [.emit (.refusing "no"), .emit (.value (.int 7)), .emit (.value (.bool false)), .fetch,
    .emit (.value .null)]

def exampleReplies : List WorkerReply :=
  [.failed (.unwritable "no"), .ok, .failed .frameTooLong,
    .received [97, 98, 99, 0, 0, 0, 1, 55] false, .ok]

theorem accepted_values_arrive_of_exampleSteps :
    connectWorker ⟨true⟩ (some (.localhost, 4000)) exampleSource 4 exampleSteps =
        .ok exampleReplies ∧
      ∃ d, exampleSource.read = .ok d ∧
        Arrives d { limit := 4 } exampleSteps exampleReplies := by
  have hrun : connectWorker ⟨true⟩ (some (.localhost, 4000)) exampleSource 4 exampleSteps =
      .ok exampleReplies := rfl
  obtain ⟨d, hd, harrives, -⟩ := accepted_values_arrive hrun (by simp [exampleSteps])
  exact ⟨hrun, d, hd, harrives⟩

end WorkerLink.Script
