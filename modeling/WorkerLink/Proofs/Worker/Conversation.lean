import WorkerLink.Channel.Run
import WorkerLink.Proofs.Frame.Encoding
import WorkerLink.Proofs.Frame.Polling
import WorkerLink.Worker

/-!
# What a worker sends and receives

After it has connected a worker sends events, and asks for commands while the bytes of the channel
arrive in any pieces, all in any order. The bytes it sends are the token and the frames of the
events (`Conversation.Speaks`); what it finds are the commands whose frames have arrived
(`Conversation.Hears`).
-/

namespace WorkerLink

/-- What can happen at a worker's end of its connection. -/
inductive Turn where
  | emit (p : Payload)
  /-- Bytes of the channel arrive. -/
  | arrive (b : Bytes)
  /-- The worker asks once for the next command. -/
  | ask

namespace Turn

def payload? : Turn → Option Payload
  | .emit p => some p
  | _ => none

def piece? : Turn → Option Bytes
  | .arrive b => some b
  | _ => none

end Turn

def FrameReader.Progress.isPending : Progress → Bool
  | .pending => true
  | _ => false

/-- A worker and its connection, with what sending events and asking for commands has given. -/
structure Conversation where
  worker : Worker
  link : Link
  emitted : List (Except IoError Unit) := []
  found : List FrameReader.Progress := []

namespace Conversation

/-- A worker that has connected and sent its token. -/
def start (d : Descriptor) (limit : Nat) : Conversation where
  worker := .ofLimit limit
  link := Channel.clientSend {} (Worker.greeting d)

def turn (x : Conversation) : Turn → Conversation
  | .emit p =>
    let (result, worker, link) := x.worker.emit p x.link
    { x with worker, link, emitted := x.emitted ++ [result] }
  | .arrive b =>
    match x.link.outbound.write b with
    | .ok outbound => { x with link := { x.link with outbound } }
    | .error _ => x
  | .ask =>
    let (found, worker, link) := x.worker.next x.link
    { x with worker, link, found := x.found ++ [found] }

def run (x : Conversation) (ts : List Turn) : Conversation := ts.foldl turn x

/-- What is sent. -/
def payloads (ts : List Turn) : List Payload := ts.filterMap Turn.payload?

/-- What arrives. -/
def arrived (ts : List Turn) : Bytes := (ts.filterMap Turn.piece?).flatten

/-- What asking has given, apart from having to wait. -/
def answers (x : Conversation) : List FrameReader.Progress := x.found.filter (!·.isPending)

theorem payloads_replicate_ask (k : Nat) : payloads (List.replicate k .ask) = [] := by
  refine List.filterMap_eq_nil_iff.2 fun t ht => ?_
  rw [List.eq_of_mem_replicate ht]
  rfl

variable {x : Conversation} {c : Codec} {sent got more b frame : Bytes} {vs cmds : List Json}
  {p : Payload} {k : Nat}

/-! ## Sending -/

/-- The worker has sent the bytes `sent`, and every event was taken. -/
structure Speaks (c : Codec) (sent : Bytes) (x : Conversation) : Prop where
  codec : x.worker.codec = c
  unsent : x.worker.unsent = []
  opened : x.link.inbound.isWritable = true
  sent : x.link.inbound.written = sent
  emitted : ∀ r ∈ x.emitted, r = .ok ()

namespace Speaks

theorem start (d : Descriptor) (limit : Nat) :
    Speaks { limit } (Worker.greeting d) (Conversation.start d limit) :=
  ⟨rfl, rfl, rfl, rfl, nofun⟩

/-- An event that can be encoded is sent as its frame. -/
theorem emit (h : Speaks c sent x) (he : c.encode p = .ok frame) :
    Speaks c (sent ++ frame) (x.turn (.emit p)) := by
  obtain ⟨worker, link, emitted, found⟩ := x
  obtain ⟨hcodec, hunsent, hopened, hsent, hemitted⟩ := h
  simp only at hcodec hunsent hopened hsent hemitted
  have hwrite : link.inbound.write frame = .ok { link.inbound with
      unread := link.inbound.unread ++ frame } := by
    rw [Stream.write, if_pos hopened]
  have hturn : (Conversation.mk worker link emitted found).turn (.emit p) =
      ⟨{ worker with unsent := [] },
        { link with inbound := { link.inbound with unread := link.inbound.unread ++ frame } },
        emitted ++ [.ok ()], found⟩ := by
    simp [turn, Worker.emit, Worker.send, Worker.flush, hcodec, hunsent, he, hwrite,
      Worker.unsentLimit]
  rw [hturn]
  refine ⟨hcodec, rfl, hopened, ?_, ?_⟩
  · rw [← hsent]
    simp [Stream.written]
  · intro r hr
    rcases List.mem_append.1 hr with hr | hr
    · exact hemitted r hr
    · exact List.mem_singleton.1 hr

theorem arrive (h : Speaks c sent x) (b : Bytes) : Speaks c sent (x.turn (.arrive b)) := by
  rw [turn]
  split <;> exact ⟨h.codec, h.unsent, h.opened, h.sent, h.emitted⟩

theorem ask (h : Speaks c sent x) : Speaks c sent (x.turn .ask) :=
  ⟨h.codec, h.unsent, h.opened, h.sent, h.emitted⟩

/-- Whatever comes in between, what is sent are the frames of the events. -/
theorem run (h : Speaks c sent x) {ts : List Turn}
    (he : ∀ p ∈ payloads ts, ∃ frame, c.encode p = .ok frame) :
    Speaks c (sent ++ c.encodeAll (payloads ts)) (x.run ts) := by
  induction ts generalizing x sent with
  | nil =>
    rw [payloads, List.filterMap_nil, Codec.encodeAll, List.append_nil]
    exact h
  | cons t ts ih =>
    cases t with
    | emit p =>
      obtain ⟨frame, hp⟩ := he p List.mem_cons_self
      have hsent : sent ++ c.encodeAll (payloads (.emit p :: ts)) =
          sent ++ frame ++ c.encodeAll (payloads ts) := by
        rw [List.append_assoc, ← Codec.encodeAll_cons hp]
        rfl
      rw [hsent]
      exact ih (h.emit hp) fun q hq => he q (List.mem_cons_of_mem _ hq)
    | arrive b => exact ih (h.arrive b) he
    | ask => exact ih h.ask he

end Speaks

/-! ## Receiving -/

/-- The bytes `got` have arrived, and the worker has found `vs` in them. -/
structure Hears (c : Codec) (got : Bytes) (vs : List Json) (x : Conversation) : Prop where
  codec : x.worker.codec = c
  opened : x.link.outbound.isWritable = true
  got : x.link.outbound.written = got
  follows : FrameReader.Follows c 0 x.worker.reader x.link.outbound vs
  answers : x.answers = vs.map .item

namespace Hears

theorem start (d : Descriptor) (limit : Nat) :
    Hears { limit } [] [] (Conversation.start d limit) :=
  ⟨rfl, rfl, rfl, .start _ rfl nofun, rfl⟩

/-- Sending an event, or failing to, does not touch what the worker receives. -/
theorem emit (h : Hears c got vs x) (p : Payload) : Hears c got vs (x.turn (.emit p)) := by
  have flush (w : Worker) (l : Link) : (w.flush l).2.1.codec = w.codec ∧
      (w.flush l).2.1.reader = w.reader ∧ (w.flush l).2.2.outbound = l.outbound := by
    unfold Worker.flush
    split <;> exact ⟨rfl, rfl, rfl⟩
  have send (w : Worker) (l : Link) : (w.send p l).2.1.codec = w.codec ∧
      (w.send p l).2.1.reader = w.reader ∧ (w.send p l).2.2.outbound = l.outbound := by
    unfold Worker.send
    split
    · exact ⟨rfl, rfl, rfl⟩
    · exact flush ..
  have emit (w : Worker) (l : Link) : (w.emit p l).2.1.codec = w.codec ∧
      (w.emit p l).2.1.reader = w.reader ∧ (w.emit p l).2.2.outbound = l.outbound := by
    unfold Worker.emit
    split
    · exact send ..
    · have hf := flush w l
      split
      · rename_i w' l' he
        rw [he] at hf
        obtain ⟨h1, h2, h3⟩ := send w' l'
        exact ⟨h1.trans hf.1, h2.trans hf.2.1, h3.trans hf.2.2⟩
      · exact hf
  obtain ⟨hcodec, hreader, hout⟩ := emit x.worker x.link
  simp only [turn]
  refine ⟨hcodec.trans h.codec, ?_, ?_, ?_, h.answers⟩
  · rw [hout]
    exact h.opened
  · rw [hout]
    exact h.got
  · rw [hreader, hout]
    exact h.follows

/-- Bytes that arrive change nothing of what was found. -/
theorem arrive (h : Hears c got vs x) (b : Bytes) : Hears c (got ++ b) vs (x.turn (.arrive b)) := by
  have hwrite : x.link.outbound.write b = .ok { x.link.outbound with
      unread := x.link.outbound.unread ++ b } := by
    rw [Stream.write, if_pos h.opened]
  simp only [turn, hwrite]
  refine ⟨h.codec, h.opened, ?_, h.follows.grows (Stream.grows_write hwrite), h.answers⟩
  rw [← h.got]
  simp [Stream.written]

/-- Asking finds the next command, or all that have arrived were found. -/
theorem ask (h : Hears c got vs x)
    (hg : ((Decoder.ofBytes (got ++ more)).remainder c).1 = none) :
    (∃ v, Hears c got (vs ++ [v]) (x.turn .ask)) ∨
      (Hears c got vs (x.turn .ask) ∧ (Decoder.ofBytes got).items c = vs) := by
  have hgood : ((Decoder.ofBytes (x.link.outbound.written.drop 0 ++ more)).remainder c).1 =
      none := by
    rw [List.drop_zero, h.got]
    exact hg
  have hasks := h.follows.poll h.opened hgood
  simp only [turn, Worker.next, h.codec]
  generalize x.worker.reader.poll c x.link.outbound = q at hasks ⊢
  obtain ⟨p, r, s⟩ := q
  have hans (p : FrameReader.Progress) :
      (x.found ++ [p]).filter (!·.isPending) = vs.map .item ++ [p].filter (!·.isPending) := by
    rw [List.filter_append, ← h.answers, Conversation.answers]
  cases hasks with
  | @item v _ _ hf hw ho =>
    refine .inl ⟨v, rfl, ho, hw.trans h.got, hf, ?_⟩
    rw [Conversation.answers, hans, List.map_append]
    rfl
  | pending hf hw ho ha =>
    rw [List.drop_zero, h.got] at ha
    refine .inr ⟨⟨rfl, ho, hw.trans h.got, hf, ?_⟩, ha⟩
    rw [Conversation.answers, hans]
    exact List.append_nil _

/-- As long as no bad frame has arrived, what is found never has to be taken back. -/
theorem run (h : Hears c got vs x) {ts : List Turn}
    (hg : ((Decoder.ofBytes (got ++ arrived ts)).remainder c).1 = none) :
    ∃ ws, Hears c (got ++ arrived ts) (vs ++ ws) (x.run ts) := by
  induction ts generalizing x got vs with
  | nil =>
    refine ⟨[], ?_⟩
    rw [arrived, List.filterMap_nil, List.flatten_nil, List.append_nil, List.append_nil]
    exact h
  | cons t ts ih =>
    cases t with
    | emit p => exact ih (h.emit p) hg
    | arrive b =>
      have harr : got ++ arrived (.arrive b :: ts) = got ++ b ++ arrived ts := by
        rw [List.append_assoc]
        rfl
      rw [harr] at hg ⊢
      exact ih (h.arrive b) hg
    | ask =>
      rcases h.ask hg with ⟨v, hv⟩ | ⟨hv, -⟩
      · obtain ⟨ws, hw⟩ := ih hv hg
        rw [List.append_assoc] at hw
        exact ⟨_, hw⟩
      · exact ih hv hg

theorem isPrefix_items (h : Hears c got vs x) : vs <+: (Decoder.ofBytes got).items c := by
  have hp := h.follows.isPrefix_items
  rwa [List.drop_zero, h.got] at hp

/-- Asking as often as there are commands finds all of them. -/
theorem asks (h : Hears c got vs x) (hv : (Decoder.ofBytes got).items c = cmds)
    (hg : ((Decoder.ofBytes got).remainder c).1 = none) (hk : cmds.length ≤ vs.length + k) :
    Hears c got cmds (x.run (List.replicate k .ask)) := by
  induction k generalizing x vs with
  | zero =>
    have hp := h.isPrefix_items
    rw [hv] at hp
    rw [← hp.eq_of_length_le hk]
    exact h
  | succ k ih =>
    rcases @ask x c got [] vs h (by rwa [List.append_nil]) with ⟨v, hf⟩ | ⟨hf, ha⟩
    · refine ih hf ?_
      rw [List.length_append, List.length_singleton]
      omega
    · refine ih hf ?_
      rw [← hv, ha]
      exact Nat.le_add_right ..

/-- Once all commands were found no byte of them is kept. -/
theorem drained (h : Hears c got vs x) (hv : (Decoder.ofBytes got).items c = vs)
    (hr : (Decoder.ofBytes got).remainder c = (none, {})) :
    x.worker.reader.decoder = {} ∧ x.link.outbound.unread = [] := by
  refine h.follows.drained ?_ ?_ <;> rwa [List.drop_zero, h.got]

end Hears

end Conversation

end WorkerLink
