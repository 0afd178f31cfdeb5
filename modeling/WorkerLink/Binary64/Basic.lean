/-!
# Finite numbers of the 64-bit binary format

A number is a sign and `mantissa · 2 ^ exponent`. `ofQuotient` rounds an exact quotient to the
nearest number, a tie to the even mantissa; products and quotients of numbers are the exact ones
rounded. A result beyond the largest number is `none`.
-/

namespace WorkerLink

/-- A finite number `± mantissa · 2 ^ exponent`, with `mantissa < 2 ^ 53` and
`-1074 ≤ exponent ≤ 971`; the mantissa is at least `2 ^ 52` unless the exponent is least. -/
structure Binary64 where
  negative : Bool
  mantissa : Nat
  exponent : Int
  deriving DecidableEq, Repr

namespace Binary64

/-- The exponent of the smallest steps. -/
def leastExponent : Int := -1074

/-- The exponent of the widest steps. -/
def greatestExponent : Int := 971

/-- Mantissas lie below this number, `2 ^ 53`. -/
def mantissaBound : Nat := 0x20000000000000

/-- The least mantissa unless the exponent is least: `2 ^ 52`. -/
def leastMantissa : Nat := 0x10000000000000

/-- The zero of either sign. -/
def zero (negative : Bool) : Binary64 := ⟨negative, 0, leastExponent⟩

def isZero (x : Binary64) : Bool := x.mantissa == 0

/-- The same magnitude with the given sign. -/
def withSign (x : Binary64) (negative : Bool) : Binary64 := { x with negative }

/-- The natural number nearest to a quotient, a tie going to the even one. -/
def roundQuotient (num den : Nat) : Nat :=
  let q := num / den
  let r := num % den
  if 2 * r > den ∨ (2 * r = den ∧ q % 2 = 1) then q + 1 else q

/-- Numerator and denominator of `num / den / 2 ^ e`. -/
def unscale (num den : Nat) (e : Int) : Nat × Nat :=
  (num <<< (-e).toNat, den <<< e.toNat)

/-- The exponent with which a positive quotient has a mantissa of 53 bits, or the least one. -/
def exponentFor (num den : Nat) : Int :=
  let guess : Int := (num.log2 : Int) - den.log2 - 52
  let (n, d) := unscale num den guess
  max leastExponent (if n < d * leastMantissa then guess - 1 else guess)

/-- The number nearest to a positive or zero quotient. -/
def ofQuotient (negative : Bool) (num den : Nat) : Option Binary64 :=
  if num = 0 then some (zero negative)
  else
    let e := exponentFor num den
    let (n, d) := unscale num den e
    let m := roundQuotient n d
    let (m, e) := if m = mantissaBound then (leastMantissa, e + 1) else (m, e)
    if e > greatestExponent then none else some ⟨negative, m, e⟩

/-- The magnitude as numerator and denominator. -/
def toQuotient (x : Binary64) : Nat × Nat :=
  (x.mantissa <<< x.exponent.toNat, 1 <<< (-x.exponent).toNat)

/-- The number nearest to a natural number. -/
def ofNat (n : Nat) : Option Binary64 := ofQuotient false n 1

/-- The product, rounded. -/
def mul (x y : Binary64) : Option Binary64 :=
  let (a, b) := x.toQuotient
  let (c, d) := y.toQuotient
  ofQuotient (x.negative != y.negative) (a * c) (b * d)

/-- The quotient by a number other than zero, rounded. -/
def div (x y : Binary64) : Option Binary64 :=
  let (a, b) := x.toQuotient
  let (c, d) := y.toQuotient
  ofQuotient (x.negative != y.negative) (a * d) (b * c)

end Binary64

end WorkerLink
