import WorkerLink.Channel.Basic

/-!
# Accepting connections

The first connection claims the worker slot and is verified. Every later one is turned away at once.
An error ends accepting: before the first claim the channel has failed, after it only nobody is let
in any more.
-/

namespace WorkerLink.Channel

/-- What the next attempt to accept gives; `none` if it has to wait. A descriptor has to be free
even where no connection is there. -/
def acceptResult? (ch : Channel) : Option AcceptResult :=
  if !ch.canOpen then some (.error (.os Errno.tooManyOpen))
  else ch.backlog.head?.map .connection

/-- Takes the result of an attempt. -/
def receive (ch : Channel) : AcceptResult → Channel
  | .connection l => { ch.openDescriptor with backlog := ch.backlog.erase l, acceptor := .taken l }
  | .unusable l =>
    { (ch.onLink l Link.release).error "Failed to take ownership of accepted socket" with
      backlog := ch.backlog.erase l, acceptor := .polling }
  | .error cause =>
    if ch.unverified then
      { ch.error "Failed to accept worker connection" with acceptor := .failing cause.message }
    else
      { (ch.warn "Accept failed after worker connected, no longer listening").stopListening with
        acceptor := .stopped }

/-- One step of accepting; `none` if there is nothing to do. -/
def acceptorStep (ch : Channel) : Option Channel :=
  match ch.acceptor with
  | .absent | .stopped => none
  | .waiting =>
    if ch.acceptorAborted then some { ch.stopListening with acceptor := .stopped }
    else if ch.backlog.isEmpty then none
    else some { ch with acceptor := .polling }
  | .polling =>
    match ch.acceptResult? with
    | none => some { ch with acceptor := .waiting }
    | some r => some (ch.receive r)
  | .taken l =>
    if ch.slot.isSome then
      some { (ch.onLink l Link.release).closeDescriptor.warn
        "Another TCP client attempts to connect" with acceptor := .polling }
    else some { ch with slot := some l, acceptor := .claimed l }
  | .claimed l =>
    if ch.unverified then
      some { ch.advance .accepted with unverified := false, acceptor := .announcing l }
    else some { ch with acceptor := .polling }
  | .announcing l => some { ch with accepted := some (.accepted l), acceptor := .verifying l }
  | .verifying _ =>
    some (if ch.canOpen then
      { ch.openDescriptor with verifier := .spawned true, acceptor := .polling }
    else { ch with verifier := .spawned false, acceptor := .polling })
  | .failing reason => some { ch.advance .failed with acceptor := .reporting reason }
  | .reporting reason =>
    some { ch.stopListening with accepted := some (.failed reason), acceptor := .stopped }

end WorkerLink.Channel
