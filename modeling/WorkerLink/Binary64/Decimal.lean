import WorkerLink.Binary64.Basic

/-!
# Decimal notation of 64-bit binary numbers

`ofDecimal` reads `significand · 10 ^ exponent` in steps of the format: the significand is rounded,
then scaled by rounded powers of ten of at most `10 ^ 308`. `shortest` gives the point of the
coarsest decimal grid that reads back as the number under rounding to nearest, and among the points
of that grid the nearest one, a tie going to the even digit. `Layout.write` writes it out.
-/

namespace WorkerLink

/-- The decimal number `digits · 10 ^ exponent`. -/
structure Decimal where
  digits : Nat
  exponent : Int
  deriving DecidableEq, Repr

namespace Binary64

/-- The greatest power of ten that is a finite number. -/
def greatestPower : Nat := 308

/-- The number nearest to a power of ten. -/
def powerOfTen (n : Nat) : Option Binary64 := ofNat (Nat.pow 10 n)

/-- Division by the greatest power, as often as asked or until nothing is left. -/
def divGreatestPower : Nat → Binary64 → Option Binary64
  | 0, x => some x
  | steps + 1, x => do
    if x.isZero then pure x
    else divGreatestPower steps (← x.div (← powerOfTen greatestPower))

/-- Division by `10 ^ n`, by the greatest power first. -/
def divPower (x : Binary64) (n : Nat) : Option Binary64 := do
  let steps := (n - 1) / greatestPower
  (← divGreatestPower steps x).div (← powerOfTen (n - steps * greatestPower))

/-- Multiplication by `10 ^ n`. -/
def mulPower (x : Binary64) (n : Nat) : Option Binary64 :=
  if n ≤ greatestPower then powerOfTen n >>= x.mul
  else if x.isZero then some x
  else none

/-- Reads `± significand · 10 ^ exponent`. -/
def ofDecimal (negative : Bool) (significand : Nat) (exponent : Int) : Option Binary64 := do
  let x ← ofNat significand
  let y ← if exponent < 0 then x.divPower (-exponent).toNat else x.mulPower exponent.toNat
  pure (y.withSign negative)

/-! ## The shortest decimal -/

/-- The numbers that round to a magnitude lie between two bounds. All three are given as
numerators over the one denominator `den`; the bounds belong to the interval if `closed`. -/
structure Rounding where
  low : Nat
  value : Nat
  high : Nat
  den : Nat
  closed : Bool

/-- The interval around a magnitude other than zero. The lower bound is nearer where the steps of
the format become finer. -/
def rounding (x : Binary64) : Rounding :=
  let below := if x.mantissa = leastMantissa ∧ x.exponent > leastExponent then 1 else 2
  let shift := (x.exponent - 2).toNat
  { low := (4 * x.mantissa - below) <<< shift
    value := (4 * x.mantissa) <<< shift
    high := (4 * x.mantissa + 2) <<< shift
    den := 1 <<< (2 - x.exponent).toNat
    closed := x.mantissa % 2 = 0 }

/-- The point of the grid of multiples of `10 ^ k` that lies in the interval and is nearest to its
value. -/
def Rounding.onGrid (i : Rounding) (k : Int) : Option Decimal :=
  let up := Nat.pow 10 k.toNat * i.den
  let down := Nat.pow 10 (-k).toNat
  let within (d : Nat) : Bool :=
    if i.closed then i.low * down ≤ d * up && d * up ≤ i.high * down
    else i.low * down < d * up && d * up < i.high * down
  let d := i.value * down / up
  let below := i.value * down - d * up
  let above := (d + 1) * up - i.value * down
  match within d, within (d + 1) with
  | true, true =>
    if below < above ∨ (below = above ∧ d % 2 = 0) then some ⟨d, k⟩ else some ⟨d + 1, k⟩
  | true, false => some ⟨d, k⟩
  | false, true => some ⟨d + 1, k⟩
  | false, false => none

/-- The shortest decimal that reads back as the magnitude. Grids run from above the largest number
to below the smallest. -/
def shortest (x : Binary64) : Decimal :=
  if x.isZero then ⟨0, 0⟩
  else ((List.range 660).findSome? fun n : Nat => x.rounding.onGrid (310 - n)).getD ⟨0, 0⟩

/-- Which magnitudes are written without an exponent: those from `10 ^ first` up to, but not
including, `10 ^ last`. -/
structure Layout where
  first : Int
  last : Int

/-- The text of a decimal. Without an exponent it has at least one digit after the point; with one
it has a point only if there is more than one digit, and the exponent has its sign. -/
def Layout.write (l : Layout) (d : Decimal) : List Char :=
  let ds := Nat.toDigits 10 d.digits
  let top := d.exponent + ds.length - 1
  if l.first ≤ top ∧ top < l.last then
    if 0 ≤ d.exponent then ds ++ List.replicate d.exponent.toNat '0' ++ ['.', '0']
    else
      let places := (-d.exponent).toNat
      let ds := List.replicate (places + 1 - ds.length) '0' ++ ds
      ds.take (ds.length - places) ++ '.' :: ds.drop (ds.length - places)
  else
    let tail := match ds.tail with
      | [] => []
      | more => '.' :: more
    ds.take 1 ++ tail ++ ['e', if top < 0 then '-' else '+'] ++ Nat.toDigits 10 top.natAbs

end Binary64

end WorkerLink
