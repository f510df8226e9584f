/-!
Binary floating point numbers of 64 bits, without their sign, in exact arithmetic: a number is
`mantissa * 2 ^ exponent` with a mantissa below 2^53. Rounding goes to the nearest such number and
from the middle to the even mantissa; what would need a larger exponent is no number.
-/

namespace BuildPanel.Decimal

/-- A finite number that is not negative. -/
structure Binary64 where
  mantissa : Nat
  exponent : Int
  deriving DecidableEq, Repr, Inhabited

/-- The quotient rounded to the nearest integer, from the middle to the even one. -/
def roundDiv (num den : Nat) : Nat :=
  let q := num / den
  let r := num % den
  if 2 * r < den then q else if 2 * r > den then q + 1 else q + q % 2

namespace Binary64

def leastExponent : Int := -1074

def greatestExponent : Int := 971

def zero : Binary64 := ⟨0, leastExponent⟩

/-- The numerator and denominator of `num / den` divided by `2 ^ e`. -/
def shifted (num den : Nat) (e : Int) : Nat × Nat :=
  if 0 ≤ e then (num, den * Nat.pow 2 e.toNat) else (num * Nat.pow 2 (-e).toNat, den)

/-- The exponent with which the quotient has a mantissa of 53 bits. -/
def exponentOf (num den : Nat) : Int :=
  let e : Int := (num.log2 : Int) - den.log2 - 52
  let (n, d) := shifted num den e
  if n / d < Nat.pow 2 52 then e - 1 else e

/-- The number nearest to a quotient; `none` if it is too large. -/
def ofRatio? (num den : Nat) : Option Binary64 :=
  if num = 0 then some zero
  else
    let e := max leastExponent (exponentOf num den)
    let (n, d) := shifted num den e
    let m := roundDiv n d
    let (m, e) := if m = Nat.pow 2 53 then (Nat.pow 2 52, e + 1) else (m, e)
    if e > greatestExponent then none else some ⟨m, e⟩

def toRatio (x : Binary64) : Nat × Nat :=
  if 0 ≤ x.exponent then (x.mantissa * Nat.pow 2 x.exponent.toNat, 1)
  else (x.mantissa, Nat.pow 2 (-x.exponent).toNat)

def mul? (x y : Binary64) : Option Binary64 :=
  ofRatio? (x.toRatio.1 * y.toRatio.1) (x.toRatio.2 * y.toRatio.2)

def div? (x y : Binary64) : Option Binary64 :=
  ofRatio? (x.toRatio.1 * y.toRatio.2) (x.toRatio.2 * y.toRatio.1)

/-- The number nearest to `digits * 10 ^ scale`; `none` if it is too large. A scale far outside the
range of the numbers decides at once. -/
def ofDecimal? (digits : Nat) (scale : Int) : Option Binary64 :=
  if digits = 0 then some zero
  else
    let size : Int := (Nat.toDigits 10 digits).length + scale
    if size > 310 then none
    else if size < -330 then some zero
    else if 0 ≤ scale then ofRatio? (digits * Nat.pow 10 scale.toNat) 1
    else ofRatio? digits (Nat.pow 10 (-scale).toNat)

end Binary64

end BuildPanel.Decimal
