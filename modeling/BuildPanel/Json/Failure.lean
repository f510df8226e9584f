import BuildPanel.Mismatch

/-!
Why a JSON text is refused, and where. A cause says what is wrong in the terms of JSON; its message
is the wording shown to clients. The place is kept as the bytes that were still to be read, from
which line and column follow.
-/

namespace BuildPanel.Json

/-- Bytes that are still to be read. -/
abbrev Input := List UInt8

inductive Cause where
  | endInValue
  | endInString
  | endInList
  | endInObject
  | expectedValue
  | expectedIdent
  | expectedColon
  | expectedListCommaOrEnd
  | expectedObjectCommaOrEnd
  | keyNotString
  | trailingComma
  | trailingCharacters
  | invalidNumber
  | numberOutOfRange
  | invalidEscape
  | loneSurrogate
  | unpairedSurrogate
  | controlCharacter
  | invalidUnicode
  | mismatch (m : Mismatch)
  deriving DecidableEq, Repr

/-- The three kinds of causes: the text breaks the grammar, it ends too early, or it denotes a value
of another type. -/
inductive Category where
  | malformed
  | premature
  | mismatched
  deriving DecidableEq, Repr

def Cause.category : Cause → Category
  | .endInValue | .endInString | .endInList | .endInObject => .premature
  | .mismatch _ => .mismatched
  | _ => .malformed

def Cause.message : Cause → String
  | .endInValue => "EOF while parsing a value"
  | .endInString => "EOF while parsing a string"
  | .endInList => "EOF while parsing a list"
  | .endInObject => "EOF while parsing an object"
  | .expectedValue => "expected value"
  | .expectedIdent => "expected ident"
  | .expectedColon => "expected `:`"
  | .expectedListCommaOrEnd => "expected `,` or `]`"
  | .expectedObjectCommaOrEnd => "expected `,` or `\x7d`"
  | .keyNotString => "key must be a string"
  | .trailingComma => "trailing comma"
  | .trailingCharacters => "trailing characters"
  | .invalidNumber => "invalid number"
  | .numberOutOfRange => "number out of range"
  | .invalidEscape => "invalid escape"
  | .loneSurrogate => "lone leading surrogate in hex escape"
  | .unpairedSurrogate => "unexpected end of hex escape"
  | .controlCharacter => "control character (\\u0000-\\u001F) found while parsing a string"
  | .invalidUnicode => "invalid unicode code point"
  | .mismatch m => m.message

inductive Step where
  | member (name : List Char)
  | element (index : Nat)
  /-- A member whose name could not be read. -/
  | unknown
  deriving DecidableEq, Repr

/-- A refusal: its cause, the bytes that were still to be read, and the part of the value in which
it arose, outermost step first. -/
structure Failure where
  cause : Cause
  rest : Input
  path : List Step
  deriving DecidableEq, Repr

/-- A refusal in front of the remaining bytes. -/
def Failure.before (cause : Cause) (rest : Input) : Failure :=
  ⟨cause, rest, []⟩

/-- A refusal at the next byte, which counts as seen. -/
def Failure.at (cause : Cause) (rest : Input) : Failure :=
  ⟨cause, rest.drop 1, []⟩

/-- The same refusal, seen from a value of which the one at hand is a part. -/
def Failure.within (f : Failure) (step : Step) : Failure :=
  { f with path := step :: f.path }

/-- Line and column of the place where `rest` is still to be read of `input`: lines count from 1, a
column is the number of bytes since the last line end. -/
def position (input rest : Input) : Nat × Nat :=
  let seen := input.take (input.length - rest.length)
  (1 + seen.count 10, (seen.reverse.takeWhile (· ≠ 10)).length)

/-- The wording of a refusal with its place in the input. -/
def Failure.message (input : Input) (f : Failure) : String :=
  let (line, column) := position input f.rest
  f.cause.message ++ " at line " ++ toString line ++ " column " ++ toString column

/-- How a path is written: names separated by dots, positions in brackets. -/
def pathText : List Step → String → String
  | [], _ => ""
  | .member name :: rest, sep => sep ++ String.ofList name ++ pathText rest "."
  | .element index :: rest, _ => "[" ++ toString index ++ "]" ++ pathText rest "."
  | .unknown :: rest, sep => sep ++ "?" ++ pathText rest "."

/-- The wording of a refusal with the path to it in front, unless no step of the path is known. -/
def Failure.located (input : Input) (f : Failure) : String :=
  if f.path.all (· = .unknown) then f.message input
  else pathText f.path "" ++ ": " ++ f.message input

end BuildPanel.Json
