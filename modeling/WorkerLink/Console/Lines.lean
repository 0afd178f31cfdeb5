import WorkerLink.Text.Blank
import WorkerLink.Text.Utf8

/-!
# Lines of a worker's console

Output is cut at every newline, and one carriage return in front of it is dropped. A line has at
most 1048576 bytes before its newline, the carriage return included, and is well-formed UTF-8; at
the first one that is not, nothing more can be read. Output that ends without a newline leaves a
last line, unless nothing or a lone carriage return is left.
-/

namespace WorkerLink.Console

/-- The longest line, in bytes before the newline. -/
def lineLimit : Nat := 1048576

/-- Why no more lines can be read. -/
inductive LineFault where
  | tooLong
  | notText
  /-- Reading the output failed. -/
  | unreadable
  deriving DecidableEq, Repr

/-- The line that has begun, last byte first, and its length. -/
structure Splitter where
  begun : Bytes := []
  length : Nat := 0
  deriving DecidableEq, Repr

/-- The line of bytes that are given last first. -/
def lineOf (backwards : Bytes) : Except LineFault String :=
  let bytes := match backwards with
    | b :: rest => if b = ascii '\r' then rest else b :: rest
    | [] => []
  match Utf8.toString? bytes.reverse with
  | some line => .ok line
  | none => .error .notText

/-- What reading a piece of output gives: the lines in it, and where the splitter stands after it,
or the fault that ends all reading. -/
structure Split where
  lines : List String
  next : Except LineFault Splitter

namespace Splitter

/-- Reads bytes; `lines` gathers the lines found, last first. -/
def readInto (lines : List String) (p : Splitter) : Bytes → Split
  | [] => ⟨lines.reverse, .ok p⟩
  | b :: rest =>
    if b = ascii '\n' then
      match lineOf p.begun with
      | .ok line => readInto (line :: lines) {} rest
      | .error e => ⟨lines.reverse, .error e⟩
    else if lineLimit ≤ p.length then ⟨lines.reverse, .error .tooLong⟩
    else readInto lines ⟨b :: p.begun, p.length + 1⟩ rest

/-- Reads a piece of output. -/
def read (p : Splitter) (piece : Bytes) : Split := readInto [] p piece

/-- The last line, at the end of the output. -/
def finish (p : Splitter) : Except LineFault (Option String) :=
  if p.begun = [] ∨ p.begun = [ascii '\r'] then .ok none else (lineOf p.begun).map some

end Splitter

/-- How a line is shown in a log: without the blanks at its end, and not at all if nothing is
left. -/
def logged (line : String) : Option String :=
  match Text.trimEnd line.toList with
  | [] => none
  | cs => some (String.ofList cs)

end WorkerLink.Console
