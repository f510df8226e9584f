import BuildPanel.Text.Utf8

/-!
Media types. A type is two words with a slash between them; what follows the last `+` of the second
word is its suffix. After a semicolon come parameters, whose values are words or quoted texts.
-/

namespace BuildPanel

namespace MediaType

def isWordByte (b : UInt8) : Bool :=
  let c := Char.ofNat b.toNat
  c.isAlphanum || "!#$%&'*+-.^_|~".toList.contains c || b = 96

def isQuotable (b : UInt8) : Bool :=
  31 < b && b ≠ 127

/-- What follows the value in quotes of a parameter: blanks, then the next parameter, or nothing. -/
def afterQuoted (s : List UInt8) : Option (List UInt8) :=
  match s.dropWhile (· = 32) with
  | [] => some []
  | b :: rest => if b = 59 then some rest else none

/-- Passes over the value of a parameter. A word may be empty only at the end. The first byte after
an opening quote belongs to the value, whatever it is. -/
def afterValue (s : List UInt8) : Option (List UInt8) :=
  match s with
  | 34 :: b :: rest =>
    if !isQuotable b then none
    else
      let value := rest.takeWhile fun b => b ≠ 34 && isQuotable b
      match rest.drop value.length with
      | 34 :: rest => afterQuoted rest
      | _ => none
  | _ =>
    let value := s.takeWhile isWordByte
    match s.drop value.length with
    | [] => some []
    | b :: rest => if b = 59 && value ≠ [] then some rest else none

/-- Whether a text is made of parameters with semicolons between them. -/
def areParameters : (limit : Nat) → List UInt8 → Bool
  | 0, _ => false
  | limit + 1, s =>
    match s.dropWhile (· = 32) with
    | [] => true
    | s =>
      let name := s.takeWhile isWordByte
      match s.drop name.length with
      | b :: rest =>
        if b = 61 && name ≠ [] then
          match afterValue rest with
          | some rest => areParameters limit rest
          | none => false
        else false
      | [] => false

def lower (b : UInt8) : UInt8 :=
  if 65 ≤ b ∧ b ≤ 90 then b + 32 else b

/-- The part of a word before its last `+`, and the part after it. A `+` that begins the word does
not count. -/
def splitSuffix (word : List UInt8) : List UInt8 × Option (List UInt8) :=
  match word with
  | [] => ([], none)
  | b :: rest =>
    let suffix := (rest.reverse.takeWhile (· ≠ 43)).reverse
    if suffix.length < rest.length then
      (b :: rest.take (rest.length - suffix.length - 1), some suffix)
    else (word, none)

/-- Whether a text is a media type for JSON: `application/json` or an application type with the
suffix `json`, in any case, with any parameters. -/
def isJson (s : List UInt8) : Bool :=
  let type := s.takeWhile isWordByte
  match s.drop type.length with
  | 47 :: s =>
    let word := s.takeWhile isWordByte
    let wellFormed := match s.drop word.length with
      | [] => true
      | b :: rest => b = 59 && word ≠ [] && areParameters (rest.length + 1) rest
    let (subtype, suffix) := splitSuffix (word.map lower)
    let json := Text.bytes "json"
    s.all (· < 127) && wellFormed && type.map lower = Text.bytes "application" &&
      (subtype = json || suffix = some json)
  | _ => false

end MediaType

end BuildPanel
