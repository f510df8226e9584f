import BuildPanel.Script.Word

/-!
A shell script as tokens: words, redirections and the marks between them. Each token knows its line.
What cannot be read is a token too, so that what stands in the lines before it can still be run.
-/

namespace BuildPanel.Script

/-- What separates words. -/
inductive Mark where
  | lineEnd
  | semicolon
  | doubleSemicolon
  | ampersand
  | and
  | or
  | pipe
  | opening
  | closing
  | ending
  /-- A quoted text does not end. -/
  | broken
  deriving DecidableEq, Repr

/-- What a descriptor is connected to. -/
inductive Redirection where
  | toFile (path : Word)
  | toEndOfFile (path : Word)
  | fromFile (path : Word)
  | fromText (text : Word)
  /-- Where another descriptor is connected to, or nowhere if the word is a dash. -/
  | same (descriptor : Word)
  deriving DecidableEq, Repr

/-- A descriptor with its new connection. -/
abbrev Redirect := Nat × Redirection

inductive Token where
  | word (pieces : Word) (line : Nat)
  | mark (m : Mark) (line : Nat)
  | redirect (descriptor : Nat) (kind : Word → Redirection)

/-- The number of lines that end in a text before what follows it. -/
def linesBefore (s rest : List Char) : Nat :=
  (s.take (s.length - rest.length)).count '\n'

def redirection? (descriptor : Option Nat) (s : List Char) : Option (Token × List Char) :=
  match s with
  | '>' :: '>' :: s => some (.redirect (descriptor.getD 1) .toEndOfFile, s)
  | '>' :: '&' :: s => some (.redirect (descriptor.getD 1) .same, s)
  | '>' :: '|' :: s => some (.redirect (descriptor.getD 1) .toFile, s)
  | '<' :: '&' :: s => some (.redirect (descriptor.getD 0) .same, s)
  | '>' :: s => some (.redirect (descriptor.getD 1) .toFile, s)
  | '<' :: s => some (.redirect (descriptor.getD 0) .fromFile, s)
  | _ => none

/-- The text of a word, as far as it is known without running anything. -/
def Piece.literal : Piece → List Char
  | .text s _ => s
  | _ => []

/-- Whether a part of a word is quoted text. -/
def Piece.isQuoted : Piece → Bool
  | .text _ quoted => quoted
  | _ => false

/-- The lines of an embedded text up to the one that ends it, and the lines after it. -/
def embeddedLines (delimiter : List Char) (unindent : Bool) :
    List (List Char) → List (List Char) × List (List Char)
  | [] => ([], [])
  | line :: rest =>
    let line := if unindent then line.dropWhile (· = '\t') else line
    if line = delimiter then ([], rest)
    else
      let (inside, after) := embeddedLines delimiter unindent rest
      (line :: inside, after)

/-- Text that begins in the line after a redirection, up to a line that is the delimiter. Its place
in the script is left empty. -/
def embedded? (s : List Char) : Option (Word × List Char) := do
  let (unindent, s) := match s with
    | '-' :: s => (true, s)
    | s => (false, s)
  let (delimiter, rest) ← readWord endsWord s.length (s.dropWhile fun c => c = ' ' ∨ c = '\t')
  let line := rest.takeWhile (· ≠ '\n')
  let after := (rest.drop (line.length + 1)).splitOn '\n'
  let (inside, after) := embeddedLines (delimiter.flatMap Piece.literal) unindent after
  let text := inside.flatMap (· ++ ['\n'])
  let word := if delimiter.any Piece.isQuoted then [.text text true] else looseWord text
  return (word, line ++ '\n' :: List.intercalate ['\n'] after)

def tokens : (limit line : Nat) → List Char → List Token
  | _, line, [] => [.mark .ending line]
  | 0, line, _ => [.mark .broken line]
  | limit + 1, line, c :: s =>
    let mark (m : Mark) (rest : List Char) := .mark m line :: tokens limit line rest
    match c, s with
    | ' ', _ | '\t', _ => tokens limit line s
    | '\\', '\n' :: rest => tokens limit (line + 1) rest
    | '\n', _ => .mark .lineEnd line :: tokens limit (line + 1) s
    | '#', _ => tokens limit line (s.dropWhile (· ≠ '\n'))
    | ';', ';' :: rest => mark .doubleSemicolon rest
    | ';', _ => mark .semicolon s
    | '&', '&' :: rest => mark .and rest
    | '&', _ => mark .ampersand s
    | '|', '|' :: rest => mark .or rest
    | '|', _ => mark .pipe s
    | '(', _ => mark .opening s
    | ')', _ => mark .closing s
    | '<', '<' :: rest =>
      match embedded? rest with
      | some (text, rest) =>
        .redirect 0 .fromText :: .word text line :: tokens limit line rest
      | none => [.mark .broken line]
    | _, _ =>
      let digits := (c :: s).takeWhile Char.isDigit
      let descriptor := if digits = [] then none else some (Nat.ofDigitChars 10 digits 0)
      match redirection? descriptor ((c :: s).drop digits.length) with
      | some (t, rest) => t :: tokens limit line rest
      | none =>
        match readWord endsWord (limit + 1) (c :: s) with
        | some (w, rest) =>
          .word w line :: tokens limit (line + linesBefore (c :: s) rest) rest
        | none => [.mark .broken (line + s.count '\n')]

def tokensOf (s : List Char) : List Token :=
  tokens s.length 1 s

end BuildPanel.Script
