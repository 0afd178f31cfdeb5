import WorkerLink.OsError
import WorkerLink.Descriptor.Error
import WorkerLink.Json.Fault

/-!
# Errors of reading, writing and connecting
-/

namespace WorkerLink

/-- Why a worker cannot learn its descriptor from the environment. -/
inductive EnvironmentError where
  | absent
  /-- The value is no text. -/
  | notText (value : Bytes)

/-- The name of the environment variable that holds the descriptor. -/
def connectionVariable : String := "FORKLINK_CONNECTION"

/-- The message of an unusable environment. -/
def EnvironmentError.message : EnvironmentError → String
  | .absent => s!"{connectionVariable} not usable: environment variable not found"
  | .notText value =>
    let shown := Text.quotedBytes value
    s!"{connectionVariable} not usable: environment variable was not valid unicode: {shown}"

/-- An error of reading, writing or connecting. -/
inductive IoError where
  /-- The operating system refused. -/
  | os (code : Errno)
  | other (reason : String)
  /-- A text is too long to be sent as a frame. -/
  | frameTooLong
  /-- The head of a received frame announces too long a text. -/
  | headTooLong
  /-- The text of a received frame is not what the stream carries. -/
  | unreadable (fault : Json.Fault)
  /-- A value refuses to be written. -/
  | unwritable (reason : String)
  /-- The stream ended inside a frame. -/
  | cutOff
  /-- The command queue is gone. -/
  | queueClosed
  | descriptor (cause : DescriptorError)
  | environment (cause : EnvironmentError)

namespace IoError

/-- What callers tell errors apart by. -/
inductive Kind where
  | invalidInput
  | invalidData
  | notFound
  | brokenPipe
  | connectionRefused
  | connectionReset
  | notConnected
  | addressNotAvailable
  | networkUnreachable
  | uncategorized
  | other
  deriving DecidableEq, Repr

/-- The kind of an operating system error. -/
def Kind.ofErrno (code : Errno) : Kind :=
  if code = Errno.invalidArgument then .invalidInput
  else if code = Errno.brokenPipe then .brokenPipe
  else if code = Errno.addressNotAvailable then .addressNotAvailable
  else if code = Errno.networkUnreachable then .networkUnreachable
  else if code = Errno.connectionReset then .connectionReset
  else if code = Errno.notConnected then .notConnected
  else if code = Errno.connectionRefused then .connectionRefused
  else .uncategorized

/-- The kind of an error. -/
def kind : IoError → Kind
  | .os code => .ofErrno code
  | .other _ | .cutOff => .other
  | .frameTooLong | .descriptor _ => .invalidInput
  | .headTooLong | .unreadable _ | .unwritable _ => .invalidData
  | .queueClosed => .brokenPipe
  | .environment _ => .notFound

/-- The message of an error. That of a text which is not what a stream carries only says so. -/
def message : IoError → String
  | .os code => code.message
  | .other reason | .unwritable reason => reason
  | .frameTooLong | .headTooLong => "frame size too big"
  | .unreadable .truncated => "input ended inside a value"
  | .unreadable .malformed => "malformed text"
  | .unreadable (.misfit why) => why.message
  | .cutOff => "bytes remaining on stream"
  | .queueClosed => "command queue closed"
  | .descriptor cause => cause.message
  | .environment cause => cause.message

end IoError

end WorkerLink
