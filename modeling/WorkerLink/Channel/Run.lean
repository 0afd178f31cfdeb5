import WorkerLink.Channel.Acceptance
import WorkerLink.Channel.Calls
import WorkerLink.Channel.Traffic
import WorkerLink.Channel.Verification

/-!
# Runs of a channel

`Channel.step` takes any action: a step of a task, a step of a call of the owner, or something that
a client, a sender of commands or the worker's output does. An action that is not possible changes
nothing, so every list of actions is a run and every interleaving is one of them. `settle` lets
the tasks go on until none of them has anything to do.
-/

namespace WorkerLink

/-- What the owner can ask of a channel. -/
inductive Request where
  | connect
  | bindCommands (queue : QueueId)
  | bindEvents (output : Bool)
  | disable
  | close
  | drop
  deriving DecidableEq, Repr

/-- The call that a request begins. -/
def Request.call : Request → Call
  | .connect => .connect
  | .bindCommands q => .bindCommands q
  | .bindEvents output => .bindEvents output
  | .disable => .disable
  | .close => .close false .start
  | .drop => .close true .start

/-- What works on a channel by itself. -/
inductive Actor where
  | acceptor
  | verifier
  | consumer
  | producer
  | relay
  /-- Releases what a dropped channel held, once nothing works on it any more. -/
  | reclaimer
  deriving DecidableEq, Repr

def Actor.all : List Actor := [.acceptor, .verifier, .consumer, .producer, .relay, .reclaimer]

/-- Anything that can happen to a channel. -/
inductive Action where
  | task (a : Actor)
  /-- The owner begins a call. -/
  | begin (r : Request)
  /-- A call that was begun, counted from the first one, goes on. -/
  | call (i : Nat)
  /-- A client connects. -/
  | join
  | send (l : LinkId) (b : Bytes)
  | finish (l : LinkId)
  | leave (l : LinkId)
  | reset (l : LinkId)
  /-- A client takes what it has received. -/
  | fetch (l : LinkId)
  | makeQueue
  | command (q : QueueId) (p : Payload)
  | dropSender (q : QueueId)
  /-- The worker writes to its output. -/
  | print (b : Bytes)
  | endOutput (e : Ending)
  | setFaults (f : Faults)

namespace Channel

/-- Whether nothing will use what a dropped channel holds. -/
def isUnused (ch : Channel) : Bool :=
  (match ch.acceptor with
    | .absent | .stopped => true
    | _ => false) &&
  (match ch.verifier with
    | .absent | .finished | .dropped => true
    | _ => false) &&
  !ch.consumer.isRunning && !ch.producer.isRunning

/-- Releases what a dropped channel held: the worker's connection and the command queue. -/
def reclaimStep (ch : Channel) : Option Channel :=
  if ch.dropped && !ch.reclaimed && ch.isUnused then
    let ch := match ch.slot with
      | some l => ch.onLink l Link.release
      | none => ch
    let ch := match ch.commands with
      | some q => ch.refuseQueue q
      | none => ch
    some { ch with reclaimed := true }
  else none

/-- One step of a task; `none` if it has nothing to do. -/
def taskStep (ch : Channel) : Actor → Option Channel
  | .acceptor => ch.acceptorStep
  | .verifier => ch.verifierStep
  | .consumer => ch.consumerStep
  | .producer => ch.producerStep
  | .relay => ch.relayStep
  | .reclaimer => ch.reclaimStep

/-- Whether the owner can begin a call: one that needs the channel for itself waits for all others,
and the others wait for it. -/
def canBegin (ch : Channel) (c : Call) : Bool :=
  !ch.dropped && ch.calls.all fun d => d.isReturned || (!c.isExclusive && !d.isExclusive)

/-- Begins a call. -/
def begin (ch : Channel) (r : Request) : Channel :=
  if ch.canBegin r.call then { ch with calls := ch.calls ++ [r.call] } else ch

/-- Lets a call go on. -/
def stepCall (ch : Channel) (i : Nat) : Channel :=
  match ch.calls[i]? with
  | none => ch
  | some c =>
    let (ch, c) := ch.callStep c
    { ch with calls := ch.calls.set i c }

/-- A client connects, as long as somebody listens. -/
def join (ch : Channel) : Channel :=
  if ch.listener = .nobody then ch
  else { ch with links := ch.links ++ [{}], backlog := ch.backlog ++ [ch.links.length] }

/-- A client writes. -/
def clientSend (l : Link) (b : Bytes) : Link :=
  match l.inbound.write b with
  | .ok s => { l with inbound := s }
  | .error _ => l

/-- A client takes what it has received. -/
def clientFetch (l : Link) : Link := { l with outbound := l.outbound.receiveAll.2 }

/-- Sends a command; a queue that is gone stays as it is. -/
def sendCommand (p : Payload) (q : CommandQueue Payload) : CommandQueue Payload :=
  match q.send p with
  | .ok q => q
  | .error _ => q

/-- Anything that can happen. -/
def step (ch : Channel) : Action → Channel
  | .task a => (ch.taskStep a).getD ch
  | .begin r => ch.begin r
  | .call i => ch.stepCall i
  | .join => ch.join
  | .send l b => ch.onLink l (clientSend · b)
  | .finish l => ch.onLink l Link.clientFinish
  | .leave l => ch.onLink l Link.clientLeave
  | .reset l => ch.onLink l Link.clientReset
  | .fetch l => ch.onLink l clientFetch
  | .makeQueue => { ch with queues := ch.queues ++ [{}] }
  | .command q p => ch.onQueue q (sendCommand p)
  | .dropSender q => ch.onQueue q (·.dropSender 0)
  | .print b =>
    match ch.output.write b with
    | .ok output => { ch with output }
    | .error _ => ch
  | .endOutput e => { ch with output := ch.output.finish e }
  | .setFaults faults => { ch with faults }

/-- A run of a channel. -/
def run (ch : Channel) (actions : List Action) : Channel := actions.foldl step ch

/-! ## Settling -/

/-- The next step that some task can take. -/
def nextStep? (ch : Channel) : Option Channel := Actor.all.findSome? ch.taskStep

/-- Whether no task has anything to do. -/
def isSettled (ch : Channel) : Bool := ch.nextStep?.isNone

/-- A bound on the steps that the tasks can take. -/
def effort (ch : Channel) : Nat :=
  let waiting := ch.links.foldl (fun n l => n + l.inbound.unread.length) 0
  let queued := ch.queues.foldl (fun n q => n + q.items.length) 0
  64 + 16 * ch.links.length + 2 * waiting + ch.reader.decoder.buffer.length + queued

/-- Lets the tasks take at most so many steps. -/
def settleWithin : Nat → Channel → Channel
  | 0, ch => ch
  | n + 1, ch =>
    match ch.nextStep? with
    | none => ch
    | some ch => settleWithin n ch

/-- Lets the tasks go on until none of them has anything to do. -/
def settle (ch : Channel) : Channel := ch.settleWithin ch.effort

/-- Lets a call go on until it returns. No call has more than 32 steps. -/
def finishCall (i : Nat) : Nat → Channel → Except ChannelError Unit × Channel
  | 0, ch => (.ok (), ch)
  | n + 1, ch =>
    match ch.calls[i]? with
    | some (.returned result) => (result, ch)
    | _ => finishCall i n (ch.stepCall i)

/-- Begins a call and lets it return without any other step in between. -/
def perform (ch : Channel) (r : Request) : Except ChannelError Unit × Channel :=
  (ch.begin r).finishCall ch.calls.length 32

end Channel

end WorkerLink
