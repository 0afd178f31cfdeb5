import WorkerLink.Logging.Filter
import WorkerLink.Console.Lines

/-!
# Setting up logging from the environment

`RUST_LOG` gives the rules of the filter. Without it the records of this library are logged from
the level named by `FORKLINK_LOG` on, which is `info` unless it names another one, and no others.
`LOG_FORMAT` chooses between lines of text and lines of JSON. A variable whose value is no text
counts as unset.
-/

namespace WorkerLink

/-- Values of environment variables. -/
structure LogEnvironment where
  rules : Option Bytes := none
  level : Option Bytes := none
  format : Option Bytes := none

/-- How records are written. -/
inductive LogFormat where
  | text
  | json
  deriving DecidableEq, Repr

/-- What is logged, and how. -/
structure Logging where
  filter : LogFilter
  format : LogFormat
  deriving DecidableEq, Repr

namespace Logging

/-- The target of this library's records. -/
def ownTarget : String := "forklink"

/-- The target of the lines of a worker's console. -/
def consoleTarget : String := "forklink::console"

/-- The verbosity that a level name stands for. -/
def levelVerbosity : Option String → Nat
  | some "trace" => 5
  | some "debug" => 4
  | some "warn" | some "warning" => 2
  | some "error" => 1
  | _ => 3

/-- The filter that an environment asks for, unless its rules cannot be cut into words. -/
def filterOf? (env : LogEnvironment) : Option LogFilter :=
  match env.rules >>= Utf8.toString? with
  | some text => LogFilter.parse? text
  | none =>
    let v := levelVerbosity (env.level >>= Utf8.toString?)
    some ⟨[ownTarget, consoleTarget].map fun t => ⟨some t, none, none, v⟩⟩

/-- The setup that an environment asks for, if there is a filter. -/
def ofEnvironment? (env : LogEnvironment) : Option Logging :=
  let format := if env.format >>= Utf8.toString? = some "json" then .json else .text
  (filterOf? env).map fun filter => ⟨filter, format⟩

/-- The records of a list of targets, levels and messages that are logged, in order. -/
def shown (l : Logging) (records : List (String × LogLevel × String)) : List String :=
  records.filterMap fun (target, level, message) =>
    if l.filter.allows target level then some s!"{level.name} {target} {message}" else none

end Logging

end WorkerLink
