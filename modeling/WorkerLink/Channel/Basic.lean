import WorkerLink.Channel.Relays
import WorkerLink.ChannelError
import WorkerLink.CommandQueue
import WorkerLink.Config
import WorkerLink.Console.Lines
import WorkerLink.Descriptor.Basic
import WorkerLink.Frame.Reader
import WorkerLink.Gate
import WorkerLink.Lifecycle
import WorkerLink.Logging.Record
import WorkerLink.Network.Link

/-!
# A channel and all that runs for it

A channel listens for one worker, verifies the token it sends first, and once a command source and
an event handler are registered too moves commands out and events in. Several tasks work on it at
once: the one that accepts connections, the one that verifies the worker, and those that move
traffic. `Channel` holds what they share together with the point each of them has reached, so that
a run is any sequence of their steps mixed with the calls of the owner and what clients do.
-/

namespace WorkerLink

/-- The number of a connection, counted from the first one. -/
abbrev LinkId := Nat

/-- The number of a command queue, counted from the first one. -/
abbrev QueueId := Nat

/-- What an attempt to accept a connection gives. -/
inductive AcceptResult where
  | connection (link : LinkId)
  /-- A connection whose socket cannot be taken over. -/
  | unusable (link : LinkId)
  | error (cause : IoError)

/-- How accepting came out. -/
inductive AcceptOutcome where
  | accepted (link : LinkId)
  | failed (reason : String)
  deriving DecidableEq, Repr

/-- The point that accepting connections has reached. -/
inductive Acceptor where
  /-- Nobody accepts yet. -/
  | absent
  /-- Waiting for a connection; only here is an abort noticed. -/
  | waiting
  /-- Trying to accept. -/
  | polling
  /-- A connection was accepted. -/
  | taken (link : LinkId)
  /-- It claimed the worker slot. -/
  | claimed (link : LinkId)
  /-- The state says so. -/
  | announcing (link : LinkId)
  /-- Those who wait for a worker know; verification is to be started. -/
  | verifying (link : LinkId)
  /-- Accepting failed before any claim. -/
  | failing (reason : String)
  /-- The state says so. -/
  | reporting (reason : String)
  | stopped
  deriving DecidableEq, Repr

/-- The points of binding the streams, once the gate has opened. -/
inductive Wiring where
  | start
  /-- Looks at the outcome of verification. -/
  | judge
  /-- Looks for connection, command source and event handler. -/
  | gather
  /-- Opens the connection for the streams. -/
  | connect
  /-- The streams cannot be bound. -/
  | fail
  /-- Gives the reserved permit back. -/
  | giveBack
  | takePermit
  | spawnConsumer (permit : Bool)
  | spawnProducer
  | registerConsumer
  | registerProducer
  /-- Looks once more whether the channel was closed. -/
  | recheck
  | abort
  | announce
  | finished
  deriving DecidableEq, Repr

/-- The point that verification has reached. -/
inductive Verifier where
  | absent
  /-- About to start, with or without a handle on the connection. -/
  | spawned (handle : Bool)
  /-- Reading the token; `got` are the bytes read so far. -/
  | reading (got : Bytes)
  /-- The outcome is known. -/
  | judged (outcome : Authentication)
  /-- The state says so. -/
  | publishing (outcome : Authentication)
  /-- Those who wait for verification know. -/
  | recording (outcome : Authentication)
  /-- The channel knows; the gate is to be told. -/
  | arriving
  /-- This arrival opened the gate. -/
  | wiring (w : Wiring)
  | finished
  /-- Dropped before it was finished. -/
  | dropped
  deriving DecidableEq, Repr

/-- Who holds the listening socket. -/
inductive Listener where
  | owner
  | acceptor
  | nobody
  deriving DecidableEq, Repr

/-- What can go wrong on the side of the operating system. -/
structure Faults where
  /-- How many more descriptors can be opened, if there is a bound. -/
  freeDescriptors : Option Nat := none
  /-- What shutting the worker's connection down fails with. -/
  shutdown : Option Errno := none
  /-- What releasing the listening socket fails with. -/
  release : Option Errno := none
  deriving DecidableEq, Repr

/-- The points of closing a channel; each keeps how the releases before it went. -/
inductive Closing where
  | start
  | announce
  | shutWorker
  | releaseListener (worker : Except IoError Unit)
  | abortStreams (releases : List (Except IoError Unit))
  | abortConsole (releases : List (Except IoError Unit))
  | giveBack (releases : List (Except IoError Unit))

/-- A call of the owner that is under way, at the point it has reached. -/
inductive Call where
  /-- Asks to accept the worker. -/
  | connect
  | connectListener
  | connectAnnounce
  | connectSpawn
  /-- Registers a command source. -/
  | bindCommands (queue : QueueId)
  | setCommands (queue : QueueId)
  /-- Registers an event handler, with or without the worker's output to relay. -/
  | bindEvents (output : Bool)
  | setEvents (output : Bool)
  | reserve (output : Bool)
  | relayOutput
  /-- Arrives at the gate. -/
  | arrive
  | wire (w : Wiring)
  /-- Stops both streams. -/
  | disable
  | cancel
  /-- Closes the channel; `dropping` if it is dropped as well. -/
  | close (dropping : Bool) (point : Closing)
  | returned (result : Except ChannelError Unit)

namespace Call

/-- Whether a call has returned. -/
def isReturned : Call → Bool
  | .returned _ => true
  | _ => false

/-- Whether a call needs the channel for itself. The others may run at the same time. -/
def isExclusive : Call → Bool
  | .connect | .connectListener | .connectAnnounce | .connectSpawn | .close .. => true
  | _ => false

end Call

/-- The number of signals a channel waits for: the outcome of verification, a command source and an
event handler. -/
def readinessSignals : Nat := 3

/-- A channel, its connections, and all that runs for it. -/
structure Channel where
  forkId : UInt32 := 1
  /-- Where the channel listens, and the token that the worker has to send. -/
  descriptor : Descriptor
  codec : Codec
  -- what the tasks share
  state : Lifecycle := .listening
  closed : Bool := false
  disabled : Bool := false
  gate : Gate := ⟨readinessSignals⟩
  /-- The connection that claimed the worker slot. -/
  slot : Option LinkId := none
  /-- The recorded outcome of verification. -/
  authentication : Option Authentication := none
  commands : Option QueueId := none
  /-- Whether an event handler is registered. -/
  handler : Bool := false
  countdown : Countdown := {}
  -- what those who wait can see
  accepted : Option AcceptOutcome := none
  verified : Option Authentication := none
  -- the tasks
  acceptor : Acceptor := .absent
  /-- Whether verification can still be started; it is once. -/
  unverified : Bool := true
  acceptorAborted : Bool := false
  verifier : Verifier := .absent
  consumer : Task := {}
  /-- Whether the consumer holds a permit. -/
  consumerPermit : Bool := false
  reader : FrameReader := {}
  producer : Task := {}
  relay : Task := {}
  splitter : Console.Splitter := {}
  calls : List Call := []
  /-- Whether the owner has dropped the channel. -/
  dropped : Bool := false
  /-- Whether what the channel held was released after that. -/
  reclaimed : Bool := false
  -- the world around it
  listener : Listener := .owner
  links : List Link := []
  /-- Connections that nobody has accepted yet, the oldest first. -/
  backlog : List LinkId := []
  queues : List (CommandQueue Payload) := []
  /-- The worker's output. -/
  output : Stream := {}
  faults : Faults := {}
  -- what has come of it all
  /-- The events given to the handler, in order. -/
  handled : List Json := []
  /-- The lines given to the console, in order. -/
  lines : List String := []
  log : List LogRecord := []

namespace Channel

/-- The token that the worker has to send. -/
def session (ch : Channel) : SessionId := ch.descriptor.session

/-! ## Small changes -/

/-- Moves the state on. -/
def advance (ch : Channel) (next : Lifecycle) : Channel :=
  { ch with state := ch.state.advance next }

def warn (ch : Channel) (message : String) : Channel :=
  { ch with log := ch.log ++ [.warn message] }

def error (ch : Channel) (message : String) : Channel :=
  { ch with log := ch.log ++ [.error message] }

/-- The connection of a number; one that never was is untouched. -/
def link (ch : Channel) (l : LinkId) : Link := ch.links.getD l {}

/-- Changes a connection. -/
def onLink (ch : Channel) (l : LinkId) (f : Link → Link) : Channel :=
  { ch with links := ch.links.modify l f }

/-- Changes a queue. -/
def onQueue (ch : Channel) (q : QueueId) (f : CommandQueue Payload → CommandQueue Payload) :
    Channel :=
  { ch with queues := ch.queues.modify q f }

/-- Whether another descriptor can be opened. -/
def canOpen (ch : Channel) : Bool := ch.faults.freeDescriptors != some 0

/-- Opens a descriptor. -/
def openDescriptor (ch : Channel) : Channel :=
  { ch with faults := { ch.faults with freeDescriptors := ch.faults.freeDescriptors.map (· - 1) } }

/-- Closes a descriptor. -/
def closeDescriptor (ch : Channel) : Channel :=
  { ch with faults := { ch.faults with freeDescriptors := ch.faults.freeDescriptors.map (· + 1) } }

/-- Closes the listening socket; connections that nobody accepted end. -/
def stopListening (ch : Channel) : Channel :=
  let ch := ch.backlog.foldl (fun ch l => ch.onLink l Link.release) ch
  { ch.closeDescriptor with listener := .nobody, backlog := [] }

end Channel

end WorkerLink
