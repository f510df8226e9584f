import BuildPanel.Decimal.Binary64

/-!
The shortest decimal that reads back as a given number. For 1, 2, .. 17 digits the two decimals
around the number are tried; the first count with a decimal that rounds to the number wins, and of
two such decimals the nearer.
-/

namespace BuildPanel.Decimal

/-- The decimal `0.d₁d₂… * 10 ^ point`, its digits without trailing zeros. -/
structure Digits where
  digits : List Char
  point : Int
  deriving DecidableEq, Repr

namespace Binary64

/-- The quotient `num / den`, which is below the power of ten `point`, in units of its `n`th digit:
again as numerator and denominator. -/
def grid (num den : Nat) (point : Int) (n : Nat) : Nat × Nat :=
  let k := point - n
  if 0 ≤ k then (num, den * Nat.pow 10 k.toNat) else (num * Nat.pow 10 (-k).toNat, den)

/-- The least power of ten that lies above a quotient, searched from an estimate. -/
def pointFrom (num den : Nat) : (limit : Nat) → Int → Int
  | 0, p => p
  | limit + 1, p =>
    let (n, d) :=
      if 0 ≤ p then (num, den * Nat.pow 10 p.toNat) else (num * Nat.pow 10 (-p).toNat, den)
    if n < d then p else pointFrom num den limit (p + 1)

/-- Whether the quotient `num / den` rounds to the number. The quotients that round to `m * 2 ^ e`
reach half a step up and down (a quarter of a step down below a power of two); the ends belong to
them iff the mantissa is even. -/
def reads (x : Binary64) (num den : Nat) : Bool :=
  let low := if x.mantissa = Nat.pow 2 52 ∧ x.exponent > leastExponent then 1 else 2
  let (n, d) := shifted num den x.exponent
  let lower := 4 * x.mantissa - low
  let upper := 4 * x.mantissa + 2
  if x.mantissa % 2 = 0 then lower * d ≤ 4 * n && 4 * n ≤ upper * d
  else lower * d < 4 * n && 4 * n < upper * d

def trim (ds : List Char) : List Char :=
  (ds.reverse.dropWhile (· = '0')).reverse

def digitsOf (c : Nat) (k : Int) : Digits :=
  let ds := Nat.toDigits 10 c
  ⟨trim ds, k + ds.length⟩

def scaled (c : Nat) (k : Int) : Nat × Nat :=
  if 0 ≤ k then (c * Nat.pow 10 k.toNat, 1) else (c, Nat.pow 10 (-k).toNat)

/-- The shortest decimal with at least `n` digits, of which there are so many more at most. -/
def shortestFrom (x : Binary64) (num den : Nat) (point : Int) : (more n : Nat) → Digits
  | 0, n => digitsOf (roundDiv (grid num den point n).1 (grid num den point n).2) (point - n)
  | more + 1, n =>
    let (gn, gd) := grid num den point n
    let c := gn / gd
    let k := point - n
    let lowOk := reads x (scaled c k).1 (scaled c k).2
    let highOk := reads x (scaled (c + 1) k).1 (scaled (c + 1) k).2
    if lowOk && highOk then digitsOf (roundDiv gn gd) k
    else if lowOk then digitsOf c k
    else if highOk then digitsOf (c + 1) k
    else shortestFrom x num den point more (n + 1)

/-- The shortest decimal that rounds to the number: 17 digits always suffice. Zero has the single
digit 0. -/
def shortest (x : Binary64) : Digits :=
  if x.mantissa = 0 then ⟨['0'], 1⟩
  else
    let (num, den) := x.toRatio
    let estimate : Int := ((num.log2 : Int) - den.log2 - 1) * 1233 / 4096 - 2
    shortestFrom x num den (pointFrom num den 20 estimate) 16 1

end Binary64

/-- Decimal notation without an exponent: at least one digit before and after the point. -/
def Digits.positional (d : Digits) : List Char :=
  if d.point ≤ 0 then "0.".toList ++ List.replicate (-d.point).toNat '0' ++ d.digits
  else
    let whole := d.point.toNat
    let before := d.digits.take whole ++ List.replicate (whole - d.digits.length) '0'
    let after := d.digits.drop whole
    before ++ '.' :: (if after.isEmpty then ['0'] else after)

/-- Scientific notation: one digit, the others after a point, and an exponent with its sign. -/
def Digits.scientific (d : Digits) : List Char :=
  let e := d.point - 1
  let mantissa :=
    match d.digits with
    | [] => ['0']
    | [c] => [c]
    | c :: rest => c :: '.' :: rest
  mantissa ++ ['e', if e < 0 then '-' else '+'] ++ Nat.toDigits 10 e.natAbs

end BuildPanel.Decimal
