import WorkerLink.Logging.Rule

/-!
# Which records are logged

Of the plain rules of a filter that are about a record, the one that names it most closely decides;
a record that no plain rule is about is not logged. No record is written inside a span here, so a
rule about spans or values lets nothing through.
-/

namespace WorkerLink

/-- A filter of records. -/
structure LogFilter where
  rules : List LogRule
  deriving DecidableEq, Repr

namespace LogFilter

/-- The rule that decides about a target. Of two that name it equally closely the later one does. -/
def rule? (f : LogFilter) (target : String) : Option LogRule :=
  (f.rules.filter fun r => r.isPlain && r.isAbout target).foldl (fun best r =>
    match best with
    | some b => if b.rank ≤ r.rank then some r else some b
    | none => some r) none

/-- Whether a record of a target is logged. -/
def allows (f : LogFilter) (target : String) (level : LogLevel) : Bool :=
  match f.rule? target with
  | some r => level.verbosity ≤ r.verbosity
  | none => false

/-- Reads the rules among texts; a malformed text is passed over. Nothing if a text cannot be cut
into words. -/
def rulesOf? : List (List Char) → Option (List LogRule)
  | [] => some []
  | text :: texts =>
    match LogRule.parse text with
    | .ok r => (rulesOf? texts).map (r :: ·)
    | .error .malformed => rulesOf? texts
    | .error .splitCharacter => none

/-- Reads rules with commas between them. Without any rule, errors are logged. -/
def parse? (text : String) : Option LogFilter :=
  let texts := (text.toList.splitBy fun a b => a ≠ ',' ∧ b ≠ ',').filter (· ≠ [','])
  (rulesOf? texts).map fun rules =>
    ⟨if rules = [] then [⟨none, none, none, 1⟩] else rules⟩

end LogFilter

end WorkerLink
