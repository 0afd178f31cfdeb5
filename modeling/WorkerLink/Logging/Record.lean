/-!
# Log records
-/

namespace WorkerLink

/-- How important a record is. -/
inductive LogLevel where
  | trace
  | debug
  | info
  | warn
  | error
  deriving DecidableEq, Repr

namespace LogLevel

/-- Every level, the least important first. -/
def all : List LogLevel := [.trace, .debug, .info, .warn, .error]

/-- The name of a level in a log. -/
def name : LogLevel → String
  | .trace => "TRACE"
  | .debug => "DEBUG"
  | .info => "INFO"
  | .warn => "WARN"
  | .error => "ERROR"

/-- How many levels are at least as important. -/
def verbosity : LogLevel → Nat
  | .error => 1
  | .warn => 2
  | .info => 3
  | .debug => 4
  | .trace => 5

end LogLevel

/-- A record that somebody has to see. -/
structure LogRecord where
  level : LogLevel
  message : String
  deriving DecidableEq, Repr

namespace LogRecord

/-- The text of a record. -/
def text (r : LogRecord) : String := s!"{r.level.name} {r.message}"

def warn (message : String) : LogRecord := ⟨.warn, message⟩

def error (message : String) : LogRecord := ⟨.error, message⟩

end LogRecord

end WorkerLink
