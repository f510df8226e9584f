import BuildPanel.Decimal.Shortest
import BuildPanel.Json.Failure

/-!
Numbers of JSON. A number is read only to be named in a message, since no member of a document that
the panel accepts is a number: integers of 64 bits are kept as they are, all others are rounded to
binary floating point. Digits beyond the 64 bits of the significand only scale it.
-/

namespace BuildPanel.Json

open Decimal

def isDigit (b : UInt8) : Bool :=
  48 ≤ b && b ≤ 57

def digitValue (b : UInt8) : Nat :=
  b.toNat - 48

inductive Number where
  | integer (i : Int)
  | rounded (negative : Bool) (x : Binary64)
  deriving DecidableEq, Repr

/-- The text of a rounded number: below 10^16 and down to 10^-5 there is no exponent. -/
def roundedText (negative : Bool) (x : Binary64) : List Char :=
  let d := x.shortest
  let shown :=
    if x.mantissa = 0 ∨ (-5 < d.point ∧ d.point ≤ 16) then d.positional else d.scientific
  if negative then '-' :: shown else shown

def Number.found : Number → Found
  | .integer i => .integer i
  | .rounded negative x => .float (roundedText negative x)

/-- Ten to a power that a number can hold. -/
def tenTo (k : Nat) : Binary64 :=
  (Binary64.ofDecimal? 1 k).getD .zero

/-- `significand * 10 ^ scale`, rounded after every step: the significand is rounded first, a scale
below -308 is divided off in steps of 308. `none` if the number is too large. -/
def scale? : Nat → Binary64 → Int → Option Binary64
  | 0, x, _ => some x
  | steps + 1, x, scale =>
    if scale.natAbs ≤ 308 then
      if 0 ≤ scale then x.mul? (tenTo scale.natAbs) else x.div? (tenTo scale.natAbs)
    else if x.mantissa = 0 then some x
    else if 0 ≤ scale then none
    else
      match x.div? (tenTo 308) with
      | none => none
      | some y => scale? steps y (scale + 308)

/-- The rounded number of a significand and a scale. A number that is not zero has vanished after
three divisions by 10^308. -/
def rounded (negative : Bool) (significand : Nat) (scale : Int) (rest : Input) :
    Except Failure (Number × Input) :=
  match (Binary64.ofRatio? significand 1).bind fun x => scale? 8 x scale with
  | some x => .ok (.rounded negative x, rest)
  | none => .error (.before .numberOutOfRange rest)

def significandLimit : Nat := Nat.pow 2 64

/-- The greatest magnitude of an exponent that is still counted. -/
def exponentLimit : Nat := Nat.pow 2 31

/-- Digits of an exponent after the first; `none` once the exponent is beyond the limit. -/
def exponentDigits : Nat → Input → Option Nat × Input
  | e, [] => (some e, [])
  | e, b :: rest =>
    if isDigit b then
      let e' := e * 10 + digitValue b
      if e' < exponentLimit then exponentDigits e' rest else (none, rest)
    else (some e, b :: rest)

def exponent (negative : Bool) (significand : Nat) (start : Int) (s : Input) :
    Except Failure (Number × Input) :=
  let (down, s) :=
    match s with
    | 43 :: r => (false, r)
    | 45 :: r => (true, r)
    | _ => (false, s)
  match s with
  | [] => .error (.before .endInValue [])
  | b :: r =>
    if !isDigit b then .error (.before .invalidNumber r)
    else
      match exponentDigits (digitValue b) r with
      | (some e, r) => rounded negative significand (if down then start - e else start + e) r
      | (none, r) =>
        if significand ≠ 0 ∧ !down then .error (.before .numberOutOfRange r)
        else .ok (.rounded negative .zero, r.dropWhile isDigit)

def isExponentMark (b : UInt8) : Bool :=
  b = 101 || b = 69

/-- What may follow the digits after the point. -/
def afterFraction (negative : Bool) (significand : Nat) (scale : Int) (s : Input) :
    Except Failure (Number × Input) :=
  match s with
  | b :: r =>
    if isExponentMark b then exponent negative significand scale r
    else rounded negative significand scale s
  | [] => rounded negative significand scale []

/-- Digits after the point: each lowers the scale, until the significand is full. -/
def fractionDigits (significand : Nat) (scale : Int) : Input → Nat × Int × Input
  | [] => (significand, scale, [])
  | b :: rest =>
    if isDigit b then
      let m := significand * 10 + digitValue b
      if m < significandLimit then fractionDigits m (scale - 1) rest
      else (significand, scale, rest.dropWhile isDigit)
    else (significand, scale, b :: rest)

def fraction (negative : Bool) (significand : Nat) (scale : Int) (s : Input) :
    Except Failure (Number × Input) :=
  match s with
  | [] => .error (.before .endInValue [])
  | b :: r =>
    if !isDigit b then .error (.before .invalidNumber r)
    else if significand * 10 + digitValue b < significandLimit then
      let (m, k, r) := fractionDigits significand scale s
      afterFraction negative m k r
    else afterFraction negative significand scale (s.dropWhile isDigit)

/-- A whole number without fraction and exponent. Zero with a sign is no integer. -/
def whole (negative : Bool) (n : Nat) (rest : Input) : Except Failure (Number × Input) :=
  if !negative then .ok (.integer n, rest)
  else if n = 0 ∨ Nat.pow 2 63 < n then rounded true n 0 rest
  else .ok (.integer (-(n : Int)), rest)

/-- What may follow the digits before the point. -/
def afterWhole (negative : Bool) (significand : Nat) (scale : Nat) (s : Input) :
    Except Failure (Number × Input) :=
  match s with
  | b :: r =>
    if b = 46 then fraction negative significand scale r
    else if isExponentMark b then exponent negative significand scale r
    else if scale = 0 then whole negative significand s
    else rounded negative significand scale s
  | [] => if scale = 0 then whole negative significand [] else rounded negative significand scale []

/-- Digits before the point: once the significand is full, all further digits only scale it. -/
def wholeDigits (significand : Nat) : Input → Nat × Nat × Input
  | [] => (significand, 0, [])
  | b :: rest =>
    if isDigit b then
      let m := significand * 10 + digitValue b
      if m < significandLimit then wholeDigits m rest
      else
        let after := (b :: rest).dropWhile isDigit
        (significand, rest.length + 1 - after.length, after)
    else (significand, 0, b :: rest)

def readNumber (negative : Bool) (s : Input) : Except Failure (Number × Input) :=
  match s with
  | [] => .error (.before .endInValue [])
  | b :: r =>
    if b = 48 then
      match r with
      | c :: _ =>
        if isDigit c then .error (.at .invalidNumber r) else afterWhole negative 0 0 r
      | [] => afterWhole negative 0 0 []
    else if isDigit b then
      let (m, k, r) := wholeDigits 0 s
      afterWhole negative m k r
    else .error (.before .invalidNumber r)

def skipExponent (s : Input) : Except Failure Input :=
  let s :=
    match s with
    | 43 :: r => r
    | 45 :: r => r
    | _ => s
  match s with
  | [] => .error (.before .invalidNumber [])
  | b :: r =>
    if isDigit b then .ok (r.dropWhile isDigit) else .error (.before .invalidNumber r)

/-- What may follow digits that are only skipped. -/
def skipAfterFraction (s : Input) : Except Failure Input :=
  match s with
  | b :: r => if isExponentMark b then skipExponent r else .ok s
  | [] => .ok []

def skipFraction (s : Input) : Except Failure Input :=
  match s with
  | [] => .error (.before .invalidNumber [])
  | b :: r =>
    if isDigit b then skipAfterFraction (r.dropWhile isDigit)
    else .error (.before .invalidNumber r)

def skipNumber (s : Input) : Except Failure Input :=
  match s with
  | [] => .error (.before .invalidNumber [])
  | b :: r =>
    if !isDigit b then .error (.before .invalidNumber r)
    else
      let after := if b = 48 then r else r.dropWhile isDigit
      match after with
      | c :: r' =>
        if b = 48 ∧ isDigit c then .error (.at .invalidNumber after)
        else if c = 46 then skipFraction r'
        else skipAfterFraction after
      | [] => .ok []

end BuildPanel.Json
