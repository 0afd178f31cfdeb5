import WorkerLink.Json.Basic
import WorkerLink.Text.Quoted

/-!
# What can be wrong with a JSON text

Reading goes from the first byte to the last and stops at the first fault: the input ends inside a
value, the text is no JSON, or it is JSON of another shape than asked for.
-/

namespace WorkerLink.Json

/-- What stands where another kind of value is expected. -/
inductive Found where
  | null
  | bool (b : Bool)
  | int (n : Int)
  | float (x : Binary64)
  | str (s : String)
  | sequence
  | map

namespace Found

/-- How a message names what was found. -/
def text : Found → String
  | .null => "null"
  | .bool b => s!"boolean `{b}`"
  | .int n => s!"integer `{String.ofList (intText n)}`"
  | .float x => s!"floating point `{String.ofList (floatText x)}`"
  | .str s => s!"string {Text.quoted s}"
  | .sequence => "sequence"
  | .map => "map"

end Found

/-- Why well-formed JSON does not fit what is asked for. -/
inductive Misfit where
  /-- A value of another kind. -/
  | kind (found : Found) (expected : String)
  /-- A value of the right kind, but out of bounds. -/
  | range (found : Found) (expected : String)
  /-- A sequence of another length. -/
  | length (found : Nat) (expected : String)
  /-- A tag that names no variant. -/
  | variant (tag : String)
  | missing (field : String)
  | duplicate (field : String)
  /-- A text that what it stands for refuses, with the reason. -/
  | refused (reason : String)

/-- The message of a misfit. -/
def Misfit.message : Misfit → String
  | .kind found expected => s!"invalid type: {found.text}, expected {expected}"
  | .range found expected => s!"invalid value: {found.text}, expected {expected}"
  | .length found expected => s!"invalid length {found}, expected {expected}"
  | .variant tag => s!"unknown variant `{tag}`"
  | .missing field => s!"missing field `{field}`"
  | .duplicate field => s!"duplicate field `{field}`"
  | .refused reason => reason

/-- The first fault of a text. -/
inductive Fault where
  /-- The input ends inside a value. -/
  | truncated
  /-- The text is no JSON. -/
  | malformed
  /-- The text is JSON of another shape. -/
  | misfit (why : Misfit)

end WorkerLink.Json
