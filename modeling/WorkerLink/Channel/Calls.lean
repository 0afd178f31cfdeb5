import WorkerLink.Channel.Wiring

/-!
# Calls of the owner

Each call is a sequence of steps, so that the tasks of the channel can run in between. A call that
the channel refuses changes nothing but what it was given: a refused command queue is gone.
-/

namespace WorkerLink.Channel

/-- Drops a command queue that was not taken. -/
def refuseQueue (ch : Channel) (q : QueueId) : Channel := ch.onQueue q CommandQueue.close

/-- Shuts down the connection in the worker slot. That it is not connected is no failure. -/
def shutWorker (ch : Channel) : Except IoError Unit × Channel :=
  match ch.slot with
  | none => (.ok (), ch)
  | some l =>
    match ch.faults.shutdown with
    | none => (.ok (), ch.onLink l Link.shutDown)
    | some code => (if code = Errno.notConnected then .ok () else .error (.os code), ch)

/-- Stops accepting and closes the listening socket if the owner still holds it. -/
def releaseListener (ch : Channel) : Except IoError Unit × Channel :=
  let ch := { ch with acceptorAborted := ch.acceptorAborted || ch.acceptor != .absent }
  if ch.listener = .owner then
    (match ch.faults.release with
      | none => .ok ()
      | some code => .error (.os code), ch.stopListening)
  else (.ok (), ch)

/-- Ends closing. A channel that is dropped has nobody to tell of a failure. -/
def finishClosing (ch : Channel) (dropping : Bool) (releases : List (Except IoError Unit)) :
    Channel × Call :=
  match CloseError.aggregate releases, dropping with
  | .ok (), false => (ch, .returned (.ok ()))
  | .error e, false => (ch, .returned (.error (.close e)))
  | .ok (), true => ({ ch with dropped := true }, .returned (.ok ()))
  | .error _, true =>
    ({ ch.warn "Failed to close fork channel" with dropped := true }, .returned (.ok ()))

/-- One step of a call. -/
def callStep (ch : Channel) : Call → Channel × Call
  | .connect => (ch, if ch.closed then .returned (.error .closed) else .connectListener)
  | .connectListener =>
    if ch.listener = .owner then ({ ch with listener := .acceptor }, .connectAnnounce)
    else (ch, .returned (.error .alreadyAccepting))
  | .connectAnnounce => (ch.advance .accepting, .connectSpawn)
  | .connectSpawn => ({ ch with acceptor := .waiting }, .returned (.ok ()))
  | .bindCommands q =>
    if ch.closed then (ch.refuseQueue q, .returned (.error .closed)) else (ch, .setCommands q)
  | .setCommands q =>
    if ch.commands.isSome then (ch.refuseQueue q, .returned (.error .commandsBound))
    else ({ ch with commands := some q }, .arrive)
  | .bindEvents output =>
    (ch, if ch.closed then .returned (.error .closed) else .setEvents output)
  | .setEvents output =>
    if ch.handler then (ch, .returned (.error .eventsBound))
    else ({ ch with handler := true }, .reserve output)
  | .reserve output =>
    ({ ch with countdown := ch.countdown.reserve }, if output then .relayOutput else .arrive)
  | .relayOutput =>
    ({ ch with countdown := ch.countdown.acquire, relay := ch.relay.start.register }, .arrive)
  | .arrive =>
    let (opened, ch) := ch.arrive
    (ch, if opened then .wire .start else .returned (.ok ()))
  | .wire w =>
    let (ch, w) := ch.wire w
    (ch, if w = .finished then .returned (.ok ()) else .wire w)
  | .disable =>
    (ch, if ch.consumer.registered || ch.producer.registered then .cancel else .returned (.ok ()))
  | .cancel => ({ ch with disabled := true }, .returned (.ok ()))
  | .close dropping .start =>
    if ch.closed then ch.finishClosing dropping []
    else ({ ch with closed := true }, .close dropping .announce)
  | .close dropping .announce => (ch.advance .closed, .close dropping .shutWorker)
  | .close dropping .shutWorker =>
    (ch.shutWorker.2, .close dropping (.releaseListener ch.shutWorker.1))
  | .close dropping (.releaseListener worker) =>
    (ch.releaseListener.2, .close dropping (.abortStreams [worker, ch.releaseListener.1]))
  | .close dropping (.abortStreams releases) =>
    (ch.abortStreams, .close dropping (.abortConsole releases))
  | .close dropping (.abortConsole releases) =>
    ({ ch with relay := ch.relay.abort }, .close dropping (.giveBack releases))
  | .close dropping (.giveBack releases) =>
    ({ ch with countdown := ch.countdown.discard }.finishClosing dropping releases)
  | .returned result => (ch, .returned result)

end WorkerLink.Channel
