/-!
# Outcomes of verifying a worker
-/

namespace WorkerLink

/-- What came of reading the token of a connection. -/
inductive Authentication where
  /-- The token is the expected one. -/
  | verified
  /-- The connection ended before the whole token was there. -/
  | closedEarly
  /-- As many bytes as the token has, but other ones; `actual` shows them as text. -/
  | mismatch (expected actual : String)
  deriving DecidableEq, Repr

namespace Authentication

def isVerified : Authentication → Bool
  | .verified => true
  | _ => false

/-- The message of an outcome. -/
def message : Authentication → String
  | .verified => "worker verified"
  | .closedEarly => "channel closed while verifying the client"
  | .mismatch expected actual =>
    s!"the actual sessionId '{actual}' does not match '{expected}'"

end Authentication

end WorkerLink
