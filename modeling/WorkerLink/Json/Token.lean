import WorkerLink.Json.Fault

/-!
# The parts of a JSON text

Blanks, words, strings and numerals, each read from the front of the input. `readHead` reads
everything of a value but the inside of an array or object; that is what a reader decides on.
-/

namespace WorkerLink.Json

/-- Whether a byte may stand between the parts of a text. -/
def isBlank (b : UInt8) : Bool := b = 0x20 || b = 0xA || b = 0x9 || b = 0xD

/-- The input from its first byte that is no blank. -/
def skipBlanks (s : Bytes) : Bytes := s.dropWhile isBlank

/-- Reads the rest of a word. -/
def expect : Bytes → Bytes → Except Fault Bytes
  | [], s => .ok s
  | _ :: _, [] => .error .truncated
  | w :: word, b :: s => if b = w then expect word s else .error .malformed

/-! ## Strings -/

/-- The value of four hexadecimal digits. -/
def hexWord? (digits : Bytes) : Option Nat :=
  digits.foldlM (fun n b => (hexValue? (Char.ofNat b.toNat)).map (n * 16 + ·)) 0

/-- What a one-letter escape stands for. -/
def shortEscape? (b : UInt8) : Option UInt8 :=
  if b = ascii '"' then some (ascii '"')
  else if b = ascii '\\' then some (ascii '\\')
  else if b = ascii '/' then some (ascii '/')
  else if b = ascii 'b' then some 0x8
  else if b = ascii 'f' then some 0xC
  else if b = ascii 'n' then some 0xA
  else if b = ascii 'r' then some 0xD
  else if b = ascii 't' then some 0x9
  else none

/-- Where a reader stands inside a string. -/
inductive Place where
  | plain
  /-- After a backslash. -/
  | escape
  /-- Inside the four digits of a `\u` escape; `got` are those read, last first, and `high` is the
  first half of a surrogate pair that waits for the second. -/
  | digits (high : Option Nat) (got : Bytes)
  /-- After the first half of a surrogate pair, where the second must begin. -/
  | pair (high : Nat)
  /-- After the backslash of the second half. -/
  | pairEscape (high : Nat)

/-- What four digits of a `\u` escape give: a character, or the first half of a pair. -/
def readDigits (high : Option Nat) (digits : Bytes) : Except Fault (Sum Char Nat) :=
  match hexWord? digits, high with
  | none, _ => .error .malformed
  | some n, none =>
    if 0xDC00 ≤ n ∧ n ≤ 0xDFFF then .error .malformed
    else if 0xD800 ≤ n ∧ n ≤ 0xDBFF then .ok (.inr n)
    else .ok (.inl (Char.ofNat n))
  | some n, some h =>
    if 0xDC00 ≤ n ∧ n ≤ 0xDFFF then
      .ok (.inl (Char.ofNat (0x10000 + (h - 0xD800) * 0x400 + (n - 0xDC00))))
    else .error .malformed

/-- The bytes of a string up to its closing quote, gathered last first in `acc`, and the rest. -/
def stringBytes : Place → Bytes → Bytes → Except Fault (Bytes × Bytes)
  | _, _, [] => .error .truncated
  | .plain, acc, b :: s =>
    if b = ascii '"' then .ok (acc.reverse, s)
    else if b = ascii '\\' then stringBytes .escape acc s
    else if b < 0x20 then .error .malformed
    else stringBytes .plain (b :: acc) s
  | .escape, acc, b :: s =>
    if b = ascii 'u' then stringBytes (.digits none []) acc s
    else match shortEscape? b with
      | some x => stringBytes .plain (x :: acc) s
      | none => .error .malformed
  | .digits high got, acc, b :: s =>
    if got.length < 3 then stringBytes (.digits high (b :: got)) acc s
    else match readDigits high (b :: got).reverse with
      | .ok (.inl c) => stringBytes .plain ((Utf8.encode [c]).reverse ++ acc) s
      | .ok (.inr n) => stringBytes (.pair n) acc s
      | .error e => .error e
  | .pair high, acc, b :: s =>
    if b = ascii '\\' then stringBytes (.pairEscape high) acc s else .error .malformed
  | .pairEscape high, acc, b :: s =>
    if b = ascii 'u' then stringBytes (.digits (some high) []) acc s else .error .malformed

/-- Reads a string after its opening quote. Its bytes are taken as UTF-8 once it is complete. -/
def readString (s : Bytes) : Except Fault (String × Bytes) := do
  let (bytes, s) ← stringBytes .plain [] s
  match Utf8.toString? bytes with
  | some text => .ok (text, s)
  | none => .error .malformed

/-! ## Numerals -/

def isDigit (b : UInt8) : Bool := 0x30 ≤ b && b ≤ 0x39

/-- The digits at the front of the input, and the rest. -/
def spanDigits (s : Bytes) : Bytes × Bytes := (s.takeWhile isDigit, s.dropWhile isDigit)

/-- The number that decimal digits stand for. -/
def digitsValue (ds : Bytes) : Nat := ds.foldl (fun n b => n * 10 + (b.toNat - 0x30)) 0

/-- A numeral in parts. -/
structure Numeral where
  negative : Bool
  whole : Bytes
  fraction : Option Bytes
  exponent : Option Int

/-- At least one digit. -/
def readDigitsSome (s : Bytes) : Except Fault (Bytes × Bytes) :=
  match spanDigits s with
  | ([], []) => .error .truncated
  | ([], _) => .error .malformed
  | (ds, rest) => .ok (ds, rest)

/-- The digits before the point: a zero stands alone. -/
def readWhole (s : Bytes) : Except Fault (Bytes × Bytes) := do
  let (ds, rest) ← readDigitsSome s
  if ds.head? = some (ascii '0') ∧ ds.length ≠ 1 then .error .malformed else .ok (ds, rest)

/-- The part after the point, if there is one. -/
def readFraction : Bytes → Except Fault (Option Bytes × Bytes)
  | b :: s =>
    if b = ascii '.' then do
      let (ds, rest) ← readDigitsSome s
      .ok (some ds, rest)
    else .ok (none, b :: s)
  | [] => .ok (none, [])

/-- The exponent, if there is one. -/
def readExponent : Bytes → Except Fault (Option Int × Bytes)
  | b :: s =>
    if b = ascii 'e' ∨ b = ascii 'E' then do
      let (negative, s) := match s with
        | c :: t =>
          if c = ascii '-' then (true, t) else if c = ascii '+' then (false, t) else (false, s)
        | [] => (false, s)
      let (ds, rest) ← readDigitsSome s
      let n : Int := digitsValue ds
      .ok (some (if negative then -n else n), rest)
    else .ok (none, b :: s)
  | [] => .ok (none, [])

/-- Reads a numeral after its sign. -/
def readNumeral (negative : Bool) (s : Bytes) : Except Fault (Numeral × Bytes) := do
  let (whole, s) ← readWhole s
  let (fraction, s) ← readFraction s
  let (exponent, s) ← readExponent s
  .ok (⟨negative, whole, fraction, exponent⟩, s)

/-- The greatest significand: a number keeps its leading digits up to 64 bits. -/
def significandMax : Nat := 0xFFFFFFFFFFFFFFFF

/-- Adds digits to a significand as long as it stays within 64 bits: the significand and the digits
left out. -/
def absorb (significand : Nat) : Bytes → Nat × Bytes
  | [] => (significand, [])
  | b :: ds =>
    let next := significand * 10 + (b.toNat - 0x30)
    if next ≤ significandMax then absorb next ds else (significand, b :: ds)

/-- The significand of a numeral with its power of ten: whole digits left out count up, fraction
digits taken in count down. -/
def Numeral.scaled (n : Numeral) : Nat × Int :=
  let (significand, out) := absorb 0 n.whole
  let fraction := n.fraction.getD []
  let (significand, cut) := absorb significand fraction
  (significand, (out.length : Int) - (fraction.length - cut.length : Nat) + n.exponent.getD 0)

/-- The value of a numeral. Without point and exponent it is an integer if it lies between
`-2 ^ 63` and `2 ^ 64 - 1`; the negative zero is none. -/
def Numeral.value (n : Numeral) : Except Fault Json :=
  let (significand, power) := n.scaled
  let whole : Int := significand
  let integral := n.fraction.isNone && n.exponent.isNone && power = 0
  if integral && !n.negative then .ok (.int whole)
  else if integral && 0 < whole && whole ≤ 0x8000000000000000 then .ok (.int (-whole))
  else match Binary64.ofDecimal n.negative significand power with
    | some x => .ok (.float x)
    | none => .error .malformed

/-! ## Heads -/

/-- A value up to the inside of an array or object. -/
inductive Head where
  | scalar (v : Json)
  | openArr
  | openObj

/-- What a head is called where another kind is expected. -/
def Head.found : Head → Found
  | .scalar .null => .null
  | .scalar (.bool b) => .bool b
  | .scalar (.int n) => .int n
  | .scalar (.float x) => .float x
  | .scalar (.str s) => .str s
  | .scalar (.arr _) | .openArr => .sequence
  | .scalar (.obj _) | .openObj => .map

/-- Reads a number after its sign. -/
def readNumber (negative : Bool) (s : Bytes) : Except Fault (Head × Bytes) := do
  let (n, s) ← readNumeral negative s
  .ok (.scalar (← n.value), s)

/-- Reads the head of a value. -/
def readHead (s : Bytes) : Except Fault (Head × Bytes) :=
  match skipBlanks s with
  | [] => .error .truncated
  | b :: s =>
    if b = ascii '"' then do
      let (text, s) ← readString s
      .ok (.scalar (.str text), s)
    else if b = ascii '[' then .ok (.openArr, s)
    else if b = ascii '\x7b' then .ok (.openObj, s)
    else if b = ascii '-' then readNumber true s
    else if isDigit b then readNumber false (b :: s)
    else if b = ascii 'n' then do .ok (.scalar .null, ← expect (asciiBytes "ull") s)
    else if b = ascii 't' then do .ok (.scalar (.bool true), ← expect (asciiBytes "rue") s)
    else if b = ascii 'f' then do .ok (.scalar (.bool false), ← expect (asciiBytes "alse") s)
    else .error .malformed

end WorkerLink.Json
