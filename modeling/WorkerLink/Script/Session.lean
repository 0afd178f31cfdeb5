import WorkerLink.Channel.Waits
import WorkerLink.Worker

/-!
# Scripts for whole sessions

A session is a channel with its owner, clients, command queues and the worker's output, all driven
by one script. Every step is followed by letting everything settle; then it shows its reply and
what has changed: the state of the channel, new events, lines and log records, and the waits that
have come to an end.
-/

namespace WorkerLink.Script

/-- What a wait is for. -/
inductive WaitFor where
  | accepted
  | complete
  deriving DecidableEq, Repr

/-- A step of a session. -/
inductive SessionAct where
  | connect
  | bindCommands
  /-- Registers an event handler, with a new output of the worker or without. -/
  | bindEvents (output : Bool)
  | disable
  | close
  | drop
  | relaysFinished
  | peer
  | info
  | accepted
  | complete
  | authentication
  | wait (id : String) (phase : WaitFor)
  | command (queue : QueueId) (p : Payload)
  /-- Drops the sender of a queue. -/
  | exhaust (queue : QueueId)
  /-- The worker writes to its output; a piece without bytes is how a reader sees the end. -/
  | print (b : Bytes)
  | breakOutput
  | endOutput
  | join (client : String)
  /-- A client writes; to write nothing takes no client. -/
  | send (client : String) (b : Bytes)
  | fetch (client : String)
  | finish (client : String)
  | leave (client : String)
  | reset (client : String)
  | nothing
  /-- A worker connects, with another token than the right one or with it. -/
  | worker (client : String) (token : Option String) (limit : Nat)
  | emit (client : String) (p : Payload)
  | next (client : String)

/-- A step with the faults during it. -/
structure SessionStep where
  act : SessionAct
  faults : Faults := {}

/-- A client that is there. -/
structure Client where
  id : String
  link : LinkId
  /-- The worker behind it, unless it writes and reads plain bytes. -/
  worker : Option Worker := none

/-- Where the worker's output goes. -/
inductive OutputEnd where
  /-- There is none. -/
  | absent
  /-- To the console relay. -/
  | relayed
  /-- Nobody took it. -/
  | refused
  deriving DecidableEq, Repr

/-- What a channel tells about itself. -/
structure Info where
  forkId : UInt32
  descriptor : Descriptor
  environment : String × String

/-- Who is at the other end of the worker's connection. -/
inductive Peer where
  | client (id : String)
  /-- Somebody who is gone. -/
  | gone

/-- What a step gives. -/
inductive Reply where
  | ok
  | connected
  | pending
  | finished
  | ended
  | noChannel
  | noConnection
  | noClient
  | noQueue
  | noOutput
  /-- The output goes nowhere. -/
  | nobodyReads
  /-- A client could not write. -/
  | failed
  /-- A client could not connect. -/
  | refused (code : Errno)
  | channel (e : ChannelError)
  | io (e : IoError)
  | descriptor (e : DescriptorError)
  | outcome (a : Option Authentication)
  | peer (p : Option Peer)
  | acceptedFrom (p : Peer)
  | received (b : Bytes) (closed : Bool)
  | item (v : Json)
  | info (i : Info)

/-- A wait that has not ended. -/
structure Wait where
  id : String
  phase : WaitFor

/-- A session. -/
structure Session where
  machine : Machine
  console : ConsoleKind
  channel : Channel
  clients : List Client := []
  /-- Whether the owner holds what it waits on. -/
  connected : Bool := false
  waits : List Wait := []
  output : OutputEnd := .absent

/-- What the channel shows as long as it is there. -/
structure Status where
  state : Lifecycle
  remaining : Nat
  pending : Nat

/-- What a step shows. -/
structure Shown where
  reply : Reply
  status : Option Status
  events : List Json
  lines : List String
  /-- In alphabetical order. -/
  log : List String
  ended : List (String × Reply)

namespace Session

/-! ## Replies -/

/-- The reply of a call. -/
def replyOf : Except ChannelError Unit → Reply
  | .ok () => .ok
  | .error e => .channel e

/-- Who is at the other end of a connection. -/
def peerOf (s : Session) (l : LinkId) : Peer :=
  match s.clients.find? (·.link = l) with
  | some c => .client c.id
  | none => .gone

/-- What waiting for a phase gives, if it has ended; an accepted wait only says so. -/
def waited? (s : Session) : WaitFor → Option Reply
  | .accepted =>
    match s.channel.accepted? with
    | none => none
    | some (.ok l) => some (.acceptedFrom (s.peerOf l))
    | some (.error e) => some (.channel e)
  | .complete =>
    match s.channel.complete? with
    | none => none
    | some (.ok outcome) => some (.outcome (some outcome))
    | some (.error e) => some (.channel e)

/-! ## Changes -/

/-- Lets an action happen. -/
def act (s : Session) (a : Action) : Session := { s with channel := s.channel.step a }

/-- A call of the owner. -/
def call (s : Session) (r : Request) : Reply × Session :=
  if s.channel.dropped then (.noChannel, s)
  else
    let (result, channel) := s.channel.perform r
    (replyOf result, { s with channel })

/-- Something that a client does. -/
def withClient (s : Session) (id : String) (f : Client → Reply × Session) : Reply × Session :=
  match s.clients.find? (·.id = id) with
  | some c => f c
  | none => (.noClient, s)

/-- Something that a client of plain bytes does. -/
def withPlain (s : Session) (id : String) (f : Client → Reply × Session) : Reply × Session :=
  s.withClient id fun c => if c.worker.isNone then f c else (.noClient, s)

/-- Something that a worker does. -/
def withWorker (s : Session) (id : String) (f : Client → Worker → Reply × Session) :
    Reply × Session :=
  s.withClient id fun c => match c.worker with
    | some w => f c w
    | none => (.noClient, s)

/-- Puts back a worker and its connection after it has used them. -/
def update (s : Session) (c : Client) (w : Worker) (l : Link) : Session :=
  { s with
    channel := s.channel.onLink c.link fun _ => l
    clients := s.clients.map fun d => if d.id = c.id then { d with worker := some w } else d }

/-- A client is gone. -/
def forget (s : Session) (c : Client) : Session :=
  { s with clients := s.clients.filter (·.id != c.id) }

/-- A client gives up and is gone. -/
def leave (s : Session) (c : Client) : Session := (s.act (.leave c.link)).forget c

/-- A client connects. One of the same name that was there before gives up. -/
def connect (s : Session) (id : String) (worker : Option Worker) (greeting : Bytes) :
    Reply × Session :=
  match s.machine.connectFault? s.channel.descriptor.addr with
  | some code => (.refused code, s)
  | none =>
    if s.channel.listener = .nobody then (.refused Errno.connectionRefused, s)
    else
      let l := s.channel.links.length
      let s := (s.act .join).act (.send l greeting)
      let s := match s.clients.find? (·.id = id) with
        | some c => s.leave c
        | none => s
      (.connected, { s with clients := s.clients ++ [⟨id, l, worker⟩] })

/-- Writes to the worker's output. -/
def onOutput (s : Session) (a : Action) : Reply × Session :=
  match s.output with
  | .absent => (.noOutput, s)
  | .refused => (.nobodyReads, s)
  | .relayed => if s.channel.relay.isRunning then (.ok, s.act a) else (.nobodyReads, s)

/-- Registers an event handler with a new output of the worker. An output that was there before
ends. -/
def bindOutput (s : Session) : Reply × Session :=
  let (reply, s') := s.call (.bindEvents true)
  match reply with
  | .ok => (reply, { s' with output := .relayed })
  | .noChannel => (reply, s)
  | _ =>
    let s' := if s'.output = .relayed then s'.act (.endOutput .finished) else s'
    (reply, { s' with output := .refused })

/-! ## Steps -/

/-- One step, before anything settles. -/
def perform (s : Session) : SessionAct → Reply × Session
  | .connect =>
    match s.call .connect with
    | (.ok, s) => (.ok, { s with connected := true })
    | other => other
  | .bindCommands =>
    if s.channel.dropped then (.noChannel, s)
    else
      let q := s.channel.queues.length
      (s.act .makeQueue).call (.bindCommands q)
  | .bindEvents true => s.bindOutput
  | .bindEvents false => s.call (.bindEvents false)
  | .disable => s.call .disable
  | .close => s.call .close
  | .drop => s.call .drop
  | .relaysFinished =>
    (if s.channel.dropped then .noChannel
      else if s.channel.relaysFinished then .finished else .pending, s)
  | .peer =>
    (if s.channel.dropped then .noChannel else .peer (s.channel.workerLink?.map s.peerOf), s)
  | .info =>
    (if s.channel.dropped then .noChannel
      else .info ⟨s.channel.forkId, s.channel.descriptor, s.channel.workerEnvironment⟩, s)
  | .accepted =>
    (if s.connected then (s.waited? .accepted).getD .pending else .noConnection, s)
  | .complete =>
    (if s.connected then (s.waited? .complete).getD .pending else .noConnection, s)
  | .authentication =>
    (if s.connected then .outcome s.channel.verified else .noConnection, s)
  | .wait id phase =>
    if s.connected then (.ok, { s with waits := s.waits ++ [⟨id, phase⟩] })
    else (.noConnection, s)
  | .command q p =>
    match s.channel.queues[q]? with
    | none => (.noQueue, s)
    | some queue =>
      if !queue.hasSender 0 then (.noQueue, s)
      else match queue.send p with
        | .error e => (.io e, s)
        | .ok _ => (.ok, s.act (.command q p))
  | .exhaust q =>
    match s.channel.queues[q]? with
    | none => (.noQueue, s)
    | some queue => if queue.hasSender 0 then (.ok, s.act (.dropSender q)) else (.noQueue, s)
  | .print [] => s.onOutput (.endOutput .finished)
  | .print b => s.onOutput (.print b)
  | .breakOutput => s.onOutput (.endOutput .reset)
  | .endOutput =>
    match s.output with
    | .absent => (.noOutput, s)
    | .refused => (.ok, { s with output := .absent })
    | .relayed => (.ok, { s.act (.endOutput .finished) with output := .absent })
  | .join id => s.connect id none []
  | .send _ [] => (.ok, s)
  | .send id b => s.withPlain id fun c =>
    if (s.channel.link c.link).inbound.isWritable then (.ok, s.act (.send c.link b))
    else (.failed, s)
  | .fetch id => s.withPlain id fun c =>
    let stream := (s.channel.link c.link).outbound
    (.received stream.unread stream.ended, s.act (.fetch c.link))
  | .finish id => s.withClient id fun c => (.ok, s.act (.finish c.link))
  | .leave id => s.withClient id fun c => (.ok, s.leave c)
  | .reset id => s.withPlain id fun c => (.ok, (s.act (.reset c.link)).forget c)
  | .nothing => (.ok, s)
  | .worker id token limit =>
    match (token.mapM SessionId.parse : Except DescriptorError (Option SessionId)) with
    | .error e => (.descriptor e, s)
    | .ok other =>
      let d := s.channel.descriptor
      let d := { d with session := other.getD d.session }
      s.connect id (some (.ofLimit limit)) (Worker.greeting d)
  | .emit id p => s.withWorker id fun c w =>
    let (result, w, l) := w.emit p (s.channel.link c.link)
    (match result with
      | .ok () => .ok
      | .error e => .io e, s.update c w l)
  | .next id => s.withWorker id fun c w =>
    let (found, w, l) := w.next (s.channel.link c.link)
    (match found with
      | .item v => .item v
      | .failed e => .io e
      | .ended => .ended
      | .arrived | .pending => .pending, s.update c w l)

/-- The lines as the console shows them. -/
def shownLines (s : Session) (lines : List String) : List String :=
  match s.console with
  | .logging => lines.filterMap Console.logged
  | .recording => lines

/-- The waits that have ended, and those that have not. -/
def splitWaits (s : Session) : List (String × Reply) × List Wait :=
  (s.waits.filterMap fun w => (s.waited? w.phase).map fun r => (w.id, r),
    s.waits.filter fun w => (s.waited? w.phase).isNone)

/-- One step of a script with everything settled after it. -/
def step (s : Session) (st : SessionStep) : Shown × Session :=
  let before := s.channel
  let (reply, s) := (s.act (.setFaults st.faults)).perform st.act
  let s := { s with channel := s.channel.settle.step (.setFaults {}) }
  let ch := s.channel
  let (ended, waits) := s.splitWaits
  let shown : Shown :=
    { reply
      status := if ch.dropped then none
        else some ⟨ch.state, ch.gate.remaining, ch.pendingRelays⟩
      events := ch.handled.drop before.handled.length
      lines := s.shownLines (ch.lines.drop before.lines.length)
      log := (ch.log.drop before.log.length).map LogRecord.text |>.mergeSort (· ≤ ·)
      ended }
  (shown, { s with waits })

/-- Runs a script. -/
def run (s : Session) : List SessionStep → List Shown
  | [] => []
  | st :: rest =>
    let (shown, s) := s.step st
    shown :: s.run rest

/-- Opens the channel of a session. -/
def create (machine : Machine) (faults : Faults) (config : Config) (fresh : SessionId)
    (port : UInt16) (shape : Json.Shape) : Except ChannelError Session := do
  let channel ← Channel.create machine faults config fresh port shape
  .ok { machine, console := config.console, channel }

end Session

end WorkerLink.Script
