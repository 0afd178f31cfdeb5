import WorkerLink.Channel.Run
import WorkerLink.Network.Machine

/-!
# Opening a channel, and waiting for its worker

Waiting for the worker has two phases: a connection was accepted, then its token was verified. Each
wait gives what the channel has published, or an error once nobody is left to publish it.
-/

namespace WorkerLink.Channel

/-- Opens a channel for events of a shape: it listens from then on, at the port that the machine
gives it, and expects `fresh` as the token unless the configuration has one. A socket has to be
free, and the machine has to let it listen at the address. -/
def create (m : Machine) (faults : Faults) (config : Config) (fresh : SessionId) (port : UInt16)
    (shape : Json.Shape) : Except ChannelError Channel :=
  if faults.freeDescriptors = some 0 then .error (.bind (.os Errno.tooManyOpen))
  else match m.listenFault? config.bindAddress with
    | some code => .error (.bind (.os code))
    | none =>
      .ok
        { forkId := config.forkId
          descriptor := ⟨.ofIp config.bindAddress port, config.session.getD fresh⟩
          codec := ⟨shape, config.frameLimit⟩ }

/-- The environment entry that tells a worker where to connect. -/
def workerEnvironment (ch : Channel) : String × String :=
  (connectionVariable, ch.descriptor.text)

/-- The connection of the worker, once one was accepted. -/
def workerLink? (ch : Channel) : Option LinkId := ch.slot

/-- Whether both streams run against the verified worker. -/
def isReady (ch : Channel) : Bool := ch.state = .ready

/-- The relays that have not finished yet. -/
def pendingRelays (ch : Channel) : Nat := ch.countdown.pending

/-- Whether all relays have finished. -/
def relaysFinished (ch : Channel) : Bool := ch.pendingRelays = 0

/-- What waiting for a connection gives; `none` if it is still waiting. -/
def accepted? (ch : Channel) : Option (Except ChannelError LinkId) :=
  match ch.accepted with
  | some (.accepted l) => some (.ok l)
  | some (.failed reason) => some (.error (.accept reason))
  | none =>
    if ch.acceptor = .stopped then
      some (.error (.accept "channel closed before a worker connected"))
    else none

/-- Whether an outcome of verification can still be published. -/
def mayVerify (ch : Channel) : Bool :=
  match ch.verifier with
  | .absent => ch.acceptor != .stopped
  | .dropped => false
  | _ => true

/-- What waiting for verification gives; `none` if it is still waiting. -/
def complete? (ch : Channel) : Option (Except ChannelError Authentication) :=
  match ch.accepted? with
  | none => none
  | some (.error e) => some (.error e)
  | some (.ok _) =>
    match ch.verified with
    | some outcome => some (.ok outcome)
    | none =>
      if ch.mayVerify then none
      else some (.error (.accept "channel closed before the worker was verified"))

/-- Ends every task where it stands, as when the threads that serve connections are stopped. -/
def stopTasks (ch : Channel) : Channel :=
  let ch := match ch.acceptor with
    | .absent | .stopped => ch
    | _ => { ch.stopListening with acceptor := .stopped }
  let ch := match ch.verifier with
    | .absent | .finished => ch
    | _ => { ch with verifier := .dropped }
  let ch := if ch.consumer.isRunning then ch.stopConsumer else ch
  let ch := if ch.producer.isRunning then ch.stopProducer else ch
  if ch.relay.isRunning then ch.stopRelay else ch

end WorkerLink.Channel
