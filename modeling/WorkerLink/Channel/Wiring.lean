import WorkerLink.Channel.Basic

/-!
# Binding the streams

The arrival that opens the gate binds the streams, wherever it came from: it makes sure that the
worker is verified, opens its connection once more, starts the event consumer and the command
producer and registers both, so that whoever closes the channel finds them. A channel that was
closed meanwhile is noticed before the first step and after the last one.
-/

namespace WorkerLink.Channel

/-- Tells the event consumer and the command producer to stop, as far as they are registered. -/
def abortStreams (ch : Channel) : Channel :=
  { ch with consumer := ch.consumer.abort, producer := ch.producer.abort }

/-- One step of binding the streams. -/
def wire (ch : Channel) : Wiring → Channel × Wiring
  | .start => (ch, if ch.closed then .finished else .judge)
  | .judge =>
    if ch.authentication = some .verified then (ch, .gather)
    else (ch.warn "Not binding streams to an unverified worker", .fail)
  | .gather =>
    if ch.slot.isSome && ch.commands.isSome && ch.handler then (ch, .connect)
    else (ch.error "Readiness gate opened without worker socket or bindings", .fail)
  | .connect =>
    if ch.canOpen then (ch.openDescriptor, .takePermit)
    else (ch.error "Failed to open worker socket for streams", .fail)
  | .fail => (ch.advance .failed, .giveBack)
  | .giveBack => ({ ch with countdown := ch.countdown.discard }, .finished)
  | .takePermit =>
    ({ ch with countdown := ch.countdown.take.2 }, .spawnConsumer ch.countdown.take.1)
  | .spawnConsumer permit =>
    ({ ch with consumer := ch.consumer.start, consumerPermit := permit }, .spawnProducer)
  | .spawnProducer => ({ ch with producer := ch.producer.start }, .registerConsumer)
  | .registerConsumer => ({ ch with consumer := ch.consumer.register }, .registerProducer)
  | .registerProducer => ({ ch with producer := ch.producer.register }, .recheck)
  | .recheck => (ch, if ch.closed then .abort else .announce)
  | .abort => (ch.abortStreams, .finished)
  | .announce => (ch.advance .ready, .finished)
  | .finished => (ch, .finished)

/-- One arrival at the gate, and whether it opened it. -/
def arrive (ch : Channel) : Bool × Channel :=
  match ch.gate.arrive with
  | (.opened, g) => (true, { ch with gate := g })
  | (.waited, g) => (false, { ch with gate := g })
  | (.surplus, g) => (false, { ch with gate := g }.warn Gate.surplusWarning)

end WorkerLink.Channel
