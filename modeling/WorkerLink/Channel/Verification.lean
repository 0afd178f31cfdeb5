import WorkerLink.Channel.Wiring

/-!
# Verifying the worker

As many bytes as the token has are read from the connection in the worker slot, never more; what
comes behind them belongs to the event stream. The outcome is shown to those who wait for it, then
recorded, and then counted at the gate.
-/

namespace WorkerLink

/-- The outcome for a complete token. -/
def Authentication.ofToken (expected : SessionId) (got : Bytes) : Authentication :=
  if got = expected.bytes then .verified
  else .mismatch expected.text (String.ofList (Utf8.lossy got))

namespace Channel

/-- Ends reading the token. -/
def judge (ch : Channel) (outcome : Authentication) : Channel :=
  { ch.closeDescriptor with verifier := .judged outcome }

/-- Reads what has arrived of the token; `none` if nothing has. -/
def readToken (ch : Channel) (got : Bytes) : Option Channel :=
  match ch.slot with
  | none => none
  | some l =>
    let (found, stream) := (ch.link l).inbound.receive (ch.session.length - got.length)
    let next := ch.onLink l fun x => { x with inbound := stream }
    match found with
    | .nothing => none
    | .finished => some (next.judge .closedEarly)
    | .failed _ => some ((next.warn "Failed to read session id from worker").judge .closedEarly)
    | .data b =>
      let got := got ++ b
      if got.length < ch.session.length then some { next with verifier := .reading got }
      else some (next.judge (.ofToken ch.session got))

/-- One step of verification; `none` if there is nothing to do. -/
def verifierStep (ch : Channel) : Option Channel :=
  match ch.verifier with
  | .absent | .finished | .dropped => none
  | .spawned true => some { ch.advance .authenticating with verifier := .reading [] }
  | .spawned false =>
    some { ch.error "Failed to open worker socket for verification" with
      verifier := .judged .closedEarly }
  | .reading got => ch.readToken got
  | .judged outcome =>
    some { ch.advance (if outcome.isVerified then .authenticated else .failed) with
      verifier := .publishing outcome }
  | .publishing outcome =>
    let ch := if outcome.isVerified then ch else ch.warn "Worker verification failed"
    some { ch with verified := some outcome, verifier := .recording outcome }
  | .recording outcome =>
    some { ch with authentication := ch.authentication.or (some outcome), verifier := .arriving }
  | .arriving =>
    let (opened, ch) := ch.arrive
    some { ch with verifier := if opened then .wiring .start else .finished }
  | .wiring w =>
    let (ch, w) := ch.wire w
    some { ch with verifier := if w = .finished then .finished else .wiring w }

end Channel

end WorkerLink
