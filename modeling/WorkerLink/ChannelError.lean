import WorkerLink.Authentication
import WorkerLink.IoError

/-!
# Errors of a channel

Closing releases several things and tries all of them; its error keeps the first failure and the
ones after it.
-/

namespace WorkerLink

/-- What went wrong while closing. -/
structure CloseError where
  first : IoError
  suppressed : List IoError

namespace CloseError

/-- The error of releases that were all attempted, if any failed. -/
def aggregate (results : List (Except IoError Unit)) : Except CloseError Unit :=
  let failures := results.filterMap fun
    | .ok () => none
    | .error e => some e
  match failures with
  | [] => .ok ()
  | first :: suppressed => .error ⟨first, suppressed⟩

/-- The message: the first failure, and how many came after it. -/
def message (e : CloseError) : String :=
  let text := "failed to close fork channel: " ++ e.first.message
  match e.suppressed with
  | [] => text
  | more => s!"{text} ({more.length} more suppressed)"

end CloseError

/-- An error of a channel. -/
inductive ChannelError where
  /-- The call does not fit what was called before. -/
  | illegalState (reason : String)
  | bind (cause : IoError)
  | accept (reason : String)
  | runtime (reason : String)
  | authentication (outcome : Authentication)
  | close (cause : CloseError)

namespace ChannelError

/-- The message of an error. -/
def message : ChannelError → String
  | .illegalState reason => s!"illegal state: {reason}"
  | .bind cause => s!"failed to bind listening socket: {cause.message}"
  | .accept reason => s!"failed to accept worker connection: {reason}"
  | .runtime reason => s!"no tokio runtime available: {reason}"
  | .authentication outcome => s!"worker authentication failed: {outcome.message}"
  | .close cause => cause.message

/-- The error behind an error. -/
def source? : ChannelError → Option IoError
  | .bind cause => some cause
  | .close cause => some cause.first
  | _ => none

/-- A call after closing. -/
def closed : ChannelError := .illegalState "fork channel is closed"

/-- A second request to accept. -/
def alreadyAccepting : ChannelError := .illegalState "already accepted TCP client connection"

/-- A second command source. -/
def commandsBound : ChannelError := .illegalState "command source already bound"

/-- A second event handler. -/
def eventsBound : ChannelError := .illegalState "event handler already bound"

end ChannelError

/-- Turns an outcome other than verified into an error. -/
def Authentication.toResult (a : Authentication) : Except ChannelError Unit :=
  if a.isVerified then .ok () else .error (.authentication a)

end WorkerLink
