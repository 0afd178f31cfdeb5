import WorkerLink.Text.Quoted

/-!
# What can be wrong with a session id or a connection descriptor
-/

namespace WorkerLink

/-- Why a text is no session id, or no connection descriptor. -/
inductive DescriptorError where
  /-- It does not start with the scheme. -/
  | scheme (text : String)
  /-- It has no part for the session. -/
  | missingSession (text : String)
  /-- What stands before the session part is no address. -/
  | address (text : String)
  | emptySession
  | invalidSession (text : String)
  deriving DecidableEq, Repr

/-- The message of an error. -/
def DescriptorError.message : DescriptorError → String
  | .scheme s => s!"connection descriptor must start with 'tcp://': {s}"
  | .missingSession s => s!"connection descriptor has no '?sessionId=' part: {s}"
  | .address s => s!"invalid address in connection descriptor: {s}"
  | .emptySession => "session id must not be empty"
  | .invalidSession s =>
    s!"session id must be printable ASCII without '&' or '#': {Text.quoted s}"

end WorkerLink
