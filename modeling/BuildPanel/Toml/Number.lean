import BuildPanel.Toml.Text
import BuildPanel.Toml.Value

/-!
Numbers, dates and times of TOML. A number is read as far as it goes; what may follow a value is
checked where the value stands.
-/

namespace BuildPanel.Toml

open Decimal

/-- Digits of a class, with single underscores between them. -/
def digitRun (p : Char → Bool) (met : List Char) : Reader (List Char)
  | '_' :: c :: rest =>
    if p c && !met.isEmpty then digitRun p (c :: met) rest else finish met ('_' :: c :: rest)
  | c :: rest => if p c then digitRun p (c :: met) rest else finish met (c :: rest)
  | [] => finish met []
where
  finish (met rest : List Char) : Option (List Char × List Char) :=
    if met.isEmpty then none else some (met.reverse, rest)

def readSign : List Char → Bool × List Char
  | '+' :: rest => (false, rest)
  | '-' :: rest => (true, rest)
  | s => (false, s)

/-- Decimal digits without a leading zero, or a single zero. -/
def readWhole : Reader (List Char)
  | '0' :: rest => some (['0'], rest)
  | s => digitRun Char.isDigit [] s

def decimalNumber (digits : List Char) : Nat :=
  digits.foldl (fun n c => n * 10 + (c.toNat - 48)) 0

def readExponent : Reader Int
  | c :: rest =>
    if c = 'e' ∨ c = 'E' then
      let (negative, rest) := readSign rest
      match digitRun Char.isDigit [] rest with
      | some (digits, rest) =>
        let e : Int := decimalNumber digits
        some (if negative then -e else e, rest)
      | none => none
    else none
  | [] => none

/-- The number nearest to a decimal. One that is too large is infinite, which only a negative number
may be. -/
def roundReal (negative : Bool) (digits : List Char) (scale : Int) : Option Scalar :=
  match Binary64.ofDecimal? (decimalNumber digits) scale with
  | some x => some (.float (.finite negative x))
  | none => if negative then some (.float (.infinite true)) else none

def readDecimal : Reader Scalar := fun s => do
  let (negative, s) := readSign s
  let (digits, s) ← readWhole s
  match s with
  | '.' :: s =>
    let (fraction, s) ← digitRun Char.isDigit [] s
    let (e, s) := (readExponent s).getD (0, s)
    return (← roundReal negative (digits ++ fraction) (e - fraction.length), s)
  | s =>
    let (e, s) ← readExponent s
    return (← roundReal negative digits e, s)

def stripWord : List Char → List Char → Option (List Char)
  | [], s => some s
  | w :: ws, c :: s => if w = c then stripWord ws s else none
  | _ :: _, [] => none

/-- `inf` and `nan` with an optional sign. -/
def readSpecial : Reader Scalar := fun s =>
  let (negative, s) := readSign s
  match stripWord "inf".toList s with
  | some rest => some (.float (.infinite negative), rest)
  | none => (stripWord "nan".toList s).map (.float .nan, ·)

def integerLimit : Nat := Nat.pow 2 63

/-- The digits of a base and the integer that they denote, which may not be too large. -/
def readBase (base : Nat) (p : Char → Bool) (s : List Char) : Option (Scalar × List Char) := do
  let (digits, rest) ← digitRun p [] s
  let n := digits.foldl (fun n c => n * base + (hexValue? c).getD 0) 0
  if n < integerLimit then some (.integer n, rest) else none

def readDecimalInteger : Reader Scalar := fun s => do
  let (negative, s) := readSign s
  let (digits, rest) ← readWhole s
  let n := decimalNumber digits
  if negative then
    if n ≤ integerLimit then some (.integer (-(n : Int)), rest) else none
  else if n < integerLimit then some (.integer n, rest) else none

def readInteger : Reader Scalar
  | '0' :: 'x' :: rest => readBase 16 (fun c => (hexValue? c).isSome) rest
  | '0' :: 'o' :: rest => readBase 8 (fun c => '0' ≤ c && c ≤ '7') rest
  | '0' :: 'b' :: rest => readBase 2 (fun c => c = '0' || c = '1') rest
  | s => readDecimalInteger s

def fixedDigits (count : Nat) : Reader Nat := fun s =>
  let digits := s.take count
  if digits.length = count ∧ digits.all Char.isDigit then
    some (decimalNumber digits, s.drop count)
  else none

def twoDigits (low high : Nat) : Reader Nat := fun s => do
  let (n, rest) ← fixedDigits 2 s
  if low ≤ n ∧ n ≤ high then some (n, rest) else none

def stripChar (c : Char) : List Char → Option (List Char)
  | d :: rest => if d = c then some rest else none
  | [] => none

def monthDays (year month : Nat) : Nat :=
  if month = 2 then
    if year % 4 = 0 ∧ (year % 100 ≠ 0 ∨ year % 400 = 0) then 29 else 28
  else if month = 4 ∨ month = 6 ∨ month = 9 ∨ month = 11 then 30
  else 31

def readDate (s : List Char) : Option (List Char) := do
  let (year, s) ← fixedDigits 4 s
  let s ← stripChar '-' s
  let (month, s) ← twoDigits 1 12 s
  let s ← stripChar '-' s
  let (day, s) ← twoDigits 1 31 s
  if day ≤ monthDays year month then some s else none

/-- The fraction of a second, which may be absent. -/
def skipFraction (s : List Char) : List Char :=
  match s with
  | '.' :: c :: rest => if c.isDigit then rest.dropWhile Char.isDigit else s
  | _ => s

/-- A time of day; a second 60 may be a leap second. -/
def readTime (s : List Char) : Option (List Char) := do
  let (_, s) ← twoDigits 0 23 s
  let s ← stripChar ':' s
  let (_, s) ← twoDigits 0 59 s
  let s ← stripChar ':' s
  let (_, s) ← twoDigits 0 60 s
  return skipFraction s

def readOffset (s : List Char) : Option (List Char) :=
  match s with
  | c :: rest =>
    if c = 'Z' ∨ c = 'z' then some rest
    else if c = '+' ∨ c = '-' then do
      let (_, s) ← twoDigits 0 23 rest
      let s ← stripChar ':' s
      let (_, s) ← twoDigits 0 59 s
      return s
    else none
  | [] => none

/-- The time that may follow a date, with an offset that may follow the time. -/
def skipTime (s : List Char) : List Char :=
  match s with
  | c :: rest =>
    if c = 'T' ∨ c = 't' ∨ c = ' ' then
      match readTime rest with
      | some after => (readOffset after).getD after
      | none => s
    else s
  | [] => []

def readDateTime : Reader Scalar := fun s =>
  match readDate s with
  | some rest => some (.dateTime, skipTime rest)
  | none => (readTime s).map (.dateTime, ·)

def readNumber : Reader Scalar := fun s =>
  readDateTime s <|> readDecimal s <|> readSpecial s <|> readInteger s

end BuildPanel.Toml
