import WorkerLink.Logging.Record
import WorkerLink.Text.Alphanumeric
import WorkerLink.Text.Blank
import WorkerLink.Text.Cut

/-!
# Rules of a log filter

A rule lets records through up to some verbosity. It is written as a verbosity alone, as
`target=verbosity`, or as a target alone, which is logged in full; behind the target may stand
`[span{field=value}]`, any part of it left out, and then the rule is about records inside such a
span or with such a field.

The blanks around a rule are no part of its form, but its words are cut from the text that still
has them, at the positions that they have without: blanks in front of a rule move its words.
-/

namespace WorkerLink

/-- A field that a rule asks for, of any value unless it names one. -/
structure LogField where
  name : String
  value : Option String := none
  deriving DecidableEq, Repr

/-- A rule of a filter. No target stands for every target; verbosity 0 lets nothing through. -/
structure LogRule where
  target : Option String := none
  span : Option String := none
  field : Option LogField := none
  verbosity : Nat
  deriving DecidableEq, Repr

/-- Why a text is no rule: it has not the form of one, or one of its words would have to be cut out
in the middle of a character. -/
inductive LogRuleFault where
  | malformed
  | splitCharacter
  deriving DecidableEq, Repr

namespace LogRule

/-! ## Words -/

/-- The number that digits stand for, if it is some verbosity. A plus sign may stand in front. -/
def number? (word : List Char) : Option Nat :=
  let digits := match word with
    | '+' :: rest => rest
    | _ => word
  if digits ≠ [] ∧ digits.all Char.isDigit then
    let n := digits.foldl (fun n c => 10 * n + (c.toNat - '0'.toNat)) 0
    if n ≤ 5 then some n else none
  else none

/-- The verbosity that a word stands for: a level in letters of any case, `off`, or a number. -/
def verbosity? (word : List Char) : Option Nat :=
  let w := (String.ofList word).toLower
  if w = "off" then some 0
  else if w = "error" then some 1
  else if w = "warn" then some 2
  else if w = "info" then some 3
  else if w = "debug" then some 4
  else if w = "trace" then some 5
  else number? word

/-- Whether a rule may start with a character. -/
def isStart (c : Char) : Bool :=
  c = '-' || c = ':' || c = '_' || c = '[' || Text.isAlphanumeric c

/-! ## Rules -/

/-- The part of a text between two positions. -/
def word (text : List Char) (start stop : Nat) : Except LogRuleFault (List Char) :=
  (Text.cut? start stop text).elim (.error .splitCharacter) .ok

/-- The verbosity that a text names from a position on. Nothing stands for the highest one. -/
def verbosityFrom (text : List Char) (start : Nat) : Except LogRuleFault Nat :=
  match Text.cutFrom? start text with
  | none => .error .splitCharacter
  | some [] => .ok 5
  | some word => (verbosity? word).elim (.error .malformed) .ok

/-- Reads the name of a field, and its value up to a second equals sign. -/
def fieldOf (text : List Char) : LogField :=
  match text.span (· ≠ '=') with
  | (name, _ :: rest) => ⟨String.ofList name, some (String.ofList (rest.takeWhile (· ≠ '=')))⟩
  | (name, []) => ⟨String.ofList name, none⟩

/-- Reads the rest of a rule from behind the bracket that opens a span: `form` is what is left of
the form, and `start` its position. -/
def parseSpan (text form : List Char) (start : Nat) (target : Option String) :
    Except LogRuleFault LogRule := do
  let (name, form) := form.span fun c => c ≠ ']' ∧ c ≠ '\x7b'
  let stop := start + Text.byteLength name
  let span := String.ofList (← word text start stop)
  match form with
  | ']' :: [] => .ok ⟨target, some span, none, 5⟩
  | ']' :: '=' :: _ => .ok ⟨target, some span, none, ← verbosityFrom text (stop + 2)⟩
  | '\x7b' :: form =>
    let span := if name = [] then none else some span
    let (field, form) := form.span (· ≠ '\x7d')
    let start := stop + 1
    let stop := start + Text.byteLength field
    if form = [] ∨ field = [] then .error .malformed
    else
      let field := fieldOf (← word text start stop)
      match form.tail with
      | ']' :: [] => .ok ⟨target, span, some field, 5⟩
      | ']' :: '=' :: _ => .ok ⟨target, span, some field, ← verbosityFrom text (stop + 3)⟩
      | _ => .error .malformed
  | _ => .error .malformed

/-- Reads a rule. -/
def parse (text : List Char) : Except LogRuleFault LogRule := do
  let form := Text.trim text
  match form with
  | [] => .error .malformed
  | '[' :: form => parseSpan text form 1 none
  | c :: _ =>
    if isStart c then
      let (name, form) := form.span fun c => c ≠ '=' ∧ c ≠ '['
      let stop := Text.byteLength name
      match form with
      | '=' :: _ =>
        let target := String.ofList (← word text 0 stop)
        .ok ⟨some target, none, none, ← verbosityFrom text (stop + 1)⟩
      | '[' :: form =>
        let target := String.ofList (← word text 0 stop)
        parseSpan text form (stop + 1) (some target)
      | _ =>
        match verbosity? text with
        | some v => .ok ⟨none, none, none, v⟩
        | none => .ok ⟨some (String.ofList text), none, none, 5⟩
    else .error .malformed

/-! ## What a rule is about -/

/-- Whether a rule says nothing about spans or values, so that a record alone can settle it. -/
def isPlain (r : LogRule) : Bool :=
  r.span.isNone && r.field.all (·.value.isNone)

/-- Whether a plain rule is about the records of a target. A record has one field, its message. -/
def isAbout (r : LogRule) (target : String) : Bool :=
  r.target.all (·.toList.isPrefixOf target.toList) && r.field.all (·.name = "message")

/-- How closely a rule names its records: the longer target first, then the one with a field. -/
def rank (r : LogRule) : Nat :=
  2 * r.target.elim 0 (·.toList.length + 1) + if r.field.isSome then 1 else 0

end LogRule

end WorkerLink
