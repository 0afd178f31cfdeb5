import WorkerLink.Json.Token

/-!
# Passing over a value nobody asked for

A member that a reader does not know is passed over without being built. Only its form is looked
at: characters need not be well-formed UTF-8, halves of surrogate pairs may stand alone, numbers may
be out of range, and nesting has no limit.
-/

namespace WorkerLink.Json

/-- Where a reader stands inside a string it passes over; `digits` counts those still due. -/
inductive SkipPlace where
  | plain
  | escape
  | digits (due : Nat) (well : Bool)

/-- The input after the closing quote of a string. The digits of a `\u` escape are looked at once
all four are there. -/
def skipString : SkipPlace → Bytes → Except Fault Bytes
  | _, [] => .error .truncated
  | .plain, b :: s =>
    if b = ascii '"' then .ok s
    else if b = ascii '\\' then skipString .escape s
    else if b < 0x20 then .error .malformed
    else skipString .plain s
  | .escape, b :: s =>
    if b = ascii 'u' then skipString (.digits 3 true) s
    else if (shortEscape? b).isSome then skipString .plain s
    else .error .malformed
  | .digits due well, b :: s =>
    let well := well && (hexValue? (Char.ofNat b.toNat)).isSome
    match due with
    | 0 => if well then skipString .plain s else .error .malformed
    | due + 1 => skipString (.digits due well) s

/-- The input after at least one digit. -/
def skipDigits (s : Bytes) : Except Fault Bytes :=
  match spanDigits s with
  | ([], _) => .error .malformed
  | (_, rest) => .ok rest

/-- The input after an exponent, if there is one. -/
def skipExponent : Bytes → Except Fault Bytes
  | b :: s =>
    if b = ascii 'e' ∨ b = ascii 'E' then
      match s with
      | c :: t => skipDigits (if c = ascii '-' ∨ c = ascii '+' then t else s)
      | [] => .error .malformed
    else .ok (b :: s)
  | [] => .ok []

/-- The input after a numeral without sign. A numeral cut off by the end of input is malformed. -/
def skipNumeral (s : Bytes) : Except Fault Bytes := do
  let (whole, s) := spanDigits s
  if whole = [] ∨ (whole.head? = some (ascii '0') ∧ whole.length ≠ 1) then .error .malformed
  else match s with
    | b :: t => if b = ascii '.' then do skipExponent (← skipDigits t) else skipExponent s
    | [] => .ok []

/-- The input after a value that is no array and no object, or after the bracket that opens one. -/
def skipHead (s : Bytes) : Except Fault (Head × Bytes) :=
  match skipBlanks s with
  | [] => .error .truncated
  | b :: s =>
    if b = ascii '"' then do .ok (.scalar .null, ← skipString .plain s)
    else if b = ascii '[' then .ok (.openArr, s)
    else if b = ascii '\x7b' then .ok (.openObj, s)
    else if b = ascii '-' then do .ok (.scalar .null, ← skipNumeral s)
    else if isDigit b then do .ok (.scalar .null, ← skipNumeral (b :: s))
    else if b = ascii 'n' then do .ok (.scalar .null, ← expect (asciiBytes "ull") s)
    else if b = ascii 't' then do .ok (.scalar .null, ← expect (asciiBytes "rue") s)
    else if b = ascii 'f' then do .ok (.scalar .null, ← expect (asciiBytes "alse") s)
    else .error .malformed

/-- The input after the name of a member and its colon. -/
def skipName : Bytes → Except Fault Bytes
  | [] => .error .truncated
  | b :: s =>
    if b = ascii '"' then do
      match skipBlanks (← skipString .plain s) with
      | [] => .error .truncated
      | c :: s => if c = ascii ':' then .ok s else .error .malformed
    else .error .malformed

/-- What is due next. -/
inductive Due where
  | value
  /-- The first item of the innermost array or object, or its end. -/
  | first
  /-- A comma, or the end of the innermost array or object. -/
  | comma

/-- Passes over a value inside arrays and objects that are open, the innermost first; each is given
by the byte that closes it. -/
def skipWithin : Nat → List UInt8 → Due → Bytes → Except Fault Bytes
  | 0, _, _, _ => .error .truncated
  | fuel + 1, opened, .value, s => do
    match ← skipHead s with
    | (.scalar _, s) => skipWithin fuel opened .comma s
    | (.openArr, s) => skipWithin fuel (ascii ']' :: opened) .first s
    | (.openObj, s) => skipWithin fuel (ascii '\x7d' :: opened) .first s
  | _ + 1, [], _, s => .ok s
  | fuel + 1, close :: opened, due, s =>
    match due, skipBlanks s with
    | _, [] => .error .truncated
    | .first, b :: s => do
      if b = close then skipWithin fuel opened .comma s
      else if close = ascii '\x7d' then
        skipWithin fuel (close :: opened) .value (← skipName (b :: s))
      else skipWithin fuel (close :: opened) .value (b :: s)
    | _, b :: s => do
      if b = close then skipWithin fuel opened .comma s
      else if b = ascii ',' then
        if close = ascii '\x7d' then
          skipWithin fuel (close :: opened) .value (← skipName (skipBlanks s))
        else skipWithin fuel (close :: opened) .value s
      else .error .malformed

/-- The input after a value. -/
def skipValue (s : Bytes) : Except Fault Bytes := skipWithin (2 * s.length + 2) [] .value s

end WorkerLink.Json
