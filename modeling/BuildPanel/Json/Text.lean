import BuildPanel.Json.Failure
import BuildPanel.Text.Utf8

/-!
Strings of JSON. Written, a string escapes quotes, backslashes and the controls below the space and
leaves all else as it is. Read, it may use every escape of the format; what it denotes must be
Unicode text. A string that is only skipped is not decoded, so its surrogates and its bytes are
free.
-/

namespace BuildPanel.Json

open Text (encodeChar)

def hexDigit (n : Nat) : Char :=
  Nat.digitChar (n % 16)

/-- How one character is written inside quotes. -/
def escapeChar (c : Char) : List Char :=
  if c = '"' then ['\\', '"']
  else if c = '\\' then ['\\', '\\']
  else if c = '\x08' then ['\\', 'b']
  else if c = '\x09' then ['\\', 't']
  else if c = '\x0a' then ['\\', 'n']
  else if c = '\x0c' then ['\\', 'f']
  else if c = '\x0d' then ['\\', 'r']
  else if c.toNat < 0x20 then ['\\', 'u', '0', '0', hexDigit (c.toNat / 16), hexDigit c.toNat]
  else [c]

/-- A text as a JSON string. -/
def quote (text : List Char) : List Char :=
  '"' :: text.flatMap escapeChar ++ ['"']

def hexValue? (b : UInt8) : Option Nat :=
  if 48 ≤ b ∧ b ≤ 57 then some (b.toNat - 48)
  else if 65 ≤ b ∧ b ≤ 70 then some (b.toNat - 55)
  else if 97 ≤ b ∧ b ≤ 102 then some (b.toNat - 87)
  else none

def hexQuad? (a b c d : UInt8) : Option Nat := do
  let a ← hexValue? a
  let b ← hexValue? b
  let c ← hexValue? c
  let d ← hexValue? d
  return ((a * 16 + b) * 16 + c) * 16 + d

def readUnit : Input → Except Failure (Nat × Input)
  | a :: b :: c :: d :: rest =>
    match hexQuad? a b c d with
    | some n => .ok (n, rest)
    | none => .error (.before .invalidEscape rest)
  | _ => .error (.before .endInString [])

def isLeading (n : Nat) : Bool :=
  0xd800 ≤ n && n ≤ 0xdbff

def isTrailing (n : Nat) : Bool :=
  0xdc00 ≤ n && n ≤ 0xdfff

def pairChar (high low : Nat) : Char :=
  Char.ofNat ((high - 0xd800) * 1024 + (low - 0xdc00) + 0x10000)

/-- The second unit of a pair, with its own escape in front. -/
def readSecondUnit (high : Nat) : Input → Except Failure (Char × Input)
  | [] => .error (.before .endInString [])
  | 92 :: s =>
    match s with
    | [] => .error (.before .endInString [])
    | 117 :: s =>
      match readUnit s with
      | .error f => .error f
      | .ok (low, rest) =>
        if isTrailing low then .ok (pairChar high low, rest)
        else .error (.before .loneSurrogate rest)
    | _ :: rest => .error (.before .unpairedSurrogate rest)
  | _ :: rest => .error (.before .unpairedSurrogate rest)

def simpleEscape? (b : UInt8) : Option Char :=
  if b = 34 then some '"'
  else if b = 92 then some '\\'
  else if b = 47 then some '/'
  else if b = 98 then some '\x08'
  else if b = 102 then some '\x0c'
  else if b = 110 then some '\n'
  else if b = 114 then some '\r'
  else if b = 116 then some '\t'
  else none

def readEscape : Input → Except Failure (Char × Input)
  | [] => .error (.before .endInString [])
  | b :: s =>
    match simpleEscape? b with
    | some c => .ok (c, s)
    | none =>
      if b ≠ 117 then .error (.before .invalidEscape s)
      else
        match readUnit s with
        | .error f => .error f
        | .ok (n, rest) =>
          if isTrailing n then .error (.before .loneSurrogate rest)
          else if isLeading n then readSecondUnit n rest
          else .ok (Char.ofNat n, rest)

/-- The bytes of a string after its opening quote, those met before in reverse. The first argument
bounds the number of steps: each of them takes an element off it. -/
def stringBytes : Input → List UInt8 → Input → Except Failure (List UInt8 × Input)
  | _, _, [] => .error (.before .endInString [])
  | [], _, s => .error (.before .endInString s)
  | _ :: bound, met, b :: s =>
    if b = 34 then .ok (met.reverse, s)
    else if b = 92 then
      match readEscape s with
      | .error f => .error f
      | .ok (c, rest) => stringBytes bound ((encodeChar c).reverse ++ met) rest
    else if b < 32 then .error (.before .controlCharacter s)
    else stringBytes bound (b :: met) s

/-- A string after its opening quote. Each step takes a byte, so the input itself bounds their
number. Bytes that are no Unicode text are reported where they begin. -/
def readString (s : Input) : Except Failure (List Char × Input) :=
  match stringBytes s [] s with
  | .error f => .error f
  | .ok (bytes, rest) =>
    match Text.decode? bytes with
    | some text => .ok (text, rest)
    | none => .error (.at .invalidUnicode (Text.broken s))

def skipEscape : Input → Except Failure Input
  | [] => .error (.before .endInString [])
  | b :: s =>
    if (simpleEscape? b).isSome then .ok s
    else if b = 117 then
      match readUnit s with
      | .error f => .error f
      | .ok (_, rest) => .ok rest
    else .error (.before .invalidEscape s)

/-- A string that is only skipped. The first argument bounds the number of steps: each of them takes
an element off it. -/
def skipStringBytes : Input → Input → Except Failure Input
  | _, [] => .error (.before .endInString [])
  | [], s => .error (.before .endInString s)
  | _ :: bound, b :: s =>
    if b = 34 then .ok s
    else if b = 92 then
      match skipEscape s with
      | .error f => .error f
      | .ok rest => skipStringBytes bound rest
    else if b < 32 then .error (.before .controlCharacter (b :: s))
    else skipStringBytes bound s

def skipString (s : Input) : Except Failure Input :=
  skipStringBytes s s

end BuildPanel.Json
