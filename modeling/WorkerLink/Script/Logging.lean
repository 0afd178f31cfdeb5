import WorkerLink.Logging.Setup

/-!
# A script for logging

One probe of every level for each of four targets, and one console line.
-/

namespace WorkerLink.Script

/-- The targets of the probes. -/
def probeTargets : List String := ["forklink", "forklink::channel", "forklink::console", "other"]

/-- The probes in order, and the record of a console line. -/
def probes : List (String × LogLevel × String) :=
  (probeTargets.flatMap fun t => LogLevel.all.map fun l => (t, l, "probe")) ++
    ((Console.logged "relayed line  ").map fun line =>
      (Logging.consoleTarget, LogLevel.info, line)).toList

/-- What became of the probes. -/
inductive ProbeAnswer where
  | silent
  | shown (format : LogFormat) (lines : List String)
  | failed
  deriving DecidableEq, Repr

/-- The probes that are logged after setting up logging a number of times; only the first counts. -/
def runProbes (env : LogEnvironment) (setups : Nat) : ProbeAnswer :=
  if setups = 0 then .silent
  else
    match Logging.ofEnvironment? env with
    | none => .failed
    | some logging =>
      match logging.shown probes with
      | [] => .silent
      | lines => .shown logging.format lines

end WorkerLink.Script
