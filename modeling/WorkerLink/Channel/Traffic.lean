import WorkerLink.Channel.Basic

/-!
# Moving traffic

The event consumer gives the events of the worker to the handler, the command producer writes the
commands of the queue to the worker, and the console relay gives the lines of the worker's output to
the console. The first error ends each of them for good; none of them closes the connection.
-/

namespace WorkerLink.Channel

/-- Ends the event consumer. The handle on the connection that it shares with the command producer
is closed with the last of the two; a producer that is still to be started has its half of it. -/
def stopConsumer (ch : Channel) : Channel :=
  let ch := if ch.producer.phase = .stopped then ch.closeDescriptor else ch
  { ch with
    consumer := ch.consumer.stop
    consumerPermit := false
    countdown := if ch.consumerPermit then ch.countdown.release else ch.countdown }

/-- Ends the command producer, and closes the handle if the event consumer has ended before. -/
def stopProducer (ch : Channel) : Channel :=
  let ch := if ch.consumer.phase = .stopped then ch.closeDescriptor else ch
  { ch with producer := ch.producer.stop }

/-- Ends the console relay; nobody reads the output from then on. -/
def stopRelay (ch : Channel) : Channel :=
  { ch with
    relay := ch.relay.stop
    output := ch.output.abandon
    countdown := ch.countdown.release }

/-- One step of the event consumer; `none` if there is nothing to do. -/
def consumerStep (ch : Channel) : Option Channel :=
  if !ch.consumer.isRunning then none
  else if ch.consumer.aborted || ch.disabled then some ch.stopConsumer
  else match ch.slot with
    | none => none
    | some l =>
      let (found, reader, stream) := ch.reader.step ch.codec (ch.link l).inbound
      let next := { ch.onLink l fun x => { x with inbound := stream } with reader }
      match found with
      | .pending => none
      | .arrived => some next
      | .item v => some { next with handled := next.handled ++ [v] }
      | .failed _ => some (next.error "Event stream error").stopConsumer
      | .ended => some next.stopConsumer

/-- One step of the command producer; `none` if there is nothing to do. -/
def producerStep (ch : Channel) : Option Channel :=
  if !ch.producer.isRunning then none
  else if ch.producer.aborted || ch.disabled then some ch.stopProducer
  else match ch.slot, ch.commands with
    | some l, some q =>
      let (found, queue) := (ch.queues.getD q {}).next
      let next := ch.onQueue q fun _ => queue
      let failed := (next.error "Failed to send command to worker").stopProducer
      match found with
      | .pending => none
      | .exhausted => some ch.stopProducer
      | .item p =>
        match ch.codec.encode p with
        | .error _ => some failed
        | .ok frame =>
          match (ch.link l).outbound.write frame with
          | .error _ => some failed
          | .ok stream => some (next.onLink l fun x => { x with outbound := stream })
    | _, _ => none

/-- Ends the console relay because of a fault. -/
def breakRelay (ch : Channel) : Channel := (ch.warn "Console relay stopped").stopRelay

/-- One step of the console relay; `none` if there is nothing to do. -/
def relayStep (ch : Channel) : Option Channel :=
  if !ch.relay.isRunning then none
  else if ch.relay.aborted then some ch.stopRelay
  else
    let (found, output) := ch.output.receiveAll
    let next := { ch with output }
    match found with
    | .nothing => none
    | .data b =>
      let split := ch.splitter.read b
      let next := { next with lines := next.lines ++ split.lines }
      match split.next with
      | .ok splitter => some { next with splitter }
      | .error _ => some next.breakRelay
    | .finished =>
      match ch.splitter.finish with
      | .ok none => some next.stopRelay
      | .ok (some line) => some { next with lines := next.lines ++ [line] }.stopRelay
      | .error _ => some next.breakRelay
    | .failed _ => some next.breakRelay

end WorkerLink.Channel
