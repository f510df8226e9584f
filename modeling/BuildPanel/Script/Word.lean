/-!
Words of a shell script: text with parts to be filled in, and how it is read. A script is read byte
by byte; each byte stands as the character of its number.
-/

namespace BuildPanel.Script

def ofBytes (s : List UInt8) : List Char :=
  s.map fun b => Char.ofNat b.toNat

/-- Characters that stand for bytes as bytes. -/
def toBytes (s : List Char) : List UInt8 :=
  s.map fun c => UInt8.ofNat c.toNat

/-- A part of a word. What is quoted is neither split nor matched against file names. -/
inductive Piece where
  | text (s : List Char) (quoted : Bool)
  /-- A value that is already known, without quotes. -/
  | filled (s : List Char)
  /-- The value of a variable, a numbered argument or one of `@`, `*`, `#`, `?`, `$` and `!`. -/
  | parameter (name : List Char) (quoted : Bool)
  /-- A value that an operator and its operand make of a parameter. -/
  | modified (name operator operand : List Char) (quoted : Bool)
  | arithmetic (expression : List Char) (quoted : Bool)
  | output (script : List Char) (quoted : Bool)
  deriving DecidableEq, Repr

abbrev Word := List Piece

/-- The mark that stands around a script whose output is filled in. -/
def backquote : Char := Char.ofNat 96

def isNameChar (c : Char) : Bool :=
  c.isAlphanum || c = '_'

def isName (s : List Char) : Bool :=
  match s with
  | [] => false
  | c :: _ => !c.isDigit && s.all isNameChar

/-- Whether a character alone names a parameter. -/
def isSpecial (c : Char) : Bool :=
  c.isDigit || ['@', '*', '#', '?', '$', '!', '-'].contains c

def endsWord (c : Char) : Bool :=
  [' ', '\t', '\n', ';', '&', '|', '<', '>', '(', ')'].contains c

/-- The text of an arithmetic expression up to its two closing parentheses, with so many others
open, and what follows. -/
def expressionText : (depth : Nat) → List Char → List Char × List Char
  | _, [] => ([], [])
  | 0, ')' :: ')' :: s => ([], s)
  | depth, c :: s =>
    let depth := if c = '(' then depth + 1 else if c = ')' then depth - 1 else depth
    let (e, rest) := expressionText depth s
    (c :: e, rest)

/-- What the next character of an enclosed text is covered by. -/
inductive Cover where
  | nothing
  | single
  | double
  | backslash (quoted : Bool)
  deriving DecidableEq, Repr

/-- What covers the character after one that is covered in a way. -/
def Cover.after (cover : Cover) (c : Char) : Cover :=
  match cover with
  | .nothing =>
    if c = '\'' then .single else if c = '"' then .double
    else if c = '\\' then .backslash false else .nothing
  | .single => if c = '\'' then .nothing else .single
  | .double => if c = '"' then .nothing else if c = '\\' then .backslash true else .double
  | .backslash quoted => if quoted then .double else .nothing

/-- The text up to the bracket that closes it, with so many others open, and what follows. Brackets
that are covered count for nothing. -/
def enclosed (left right : Char) : (depth : Nat) → Cover → List Char → List Char × List Char
  | _, _, [] => ([], [])
  | depth, cover, c :: s =>
    if cover = .nothing ∧ c = right ∧ depth = 0 then ([], s)
    else
      let depth :=
        if cover ≠ .nothing then depth
        else if c = left then depth + 1
        else if c = right then depth - 1
        else depth
      let (inside, rest) := enclosed left right depth (cover.after c) s
      (c :: inside, rest)

/-- The text up to the next mark that a script ends with, and what follows. -/
def backquoted : List Char → List Char × List Char
  | [] => ([], [])
  | '\\' :: c :: s =>
    let (inside, rest) := backquoted s
    if c = backquote ∨ c = '\\' ∨ c = '$' then (c :: inside, rest) else ('\\' :: c :: inside, rest)
  | c :: s =>
    if c = backquote then ([], s)
    else
      let (inside, rest) := backquoted s
      (c :: inside, rest)

/-- The operators on parameters, the longer of two with one beginning first. -/
def operators : List (List Char) :=
  [":-", ":=", ":+", ":?", "%%", "##", "-", "=", "+", "?", "%", "#"].map String.toList

def braced (quoted : Bool) (s : List Char) : Piece :=
  let name :=
    match s with
    | c :: _ =>
      if c.isDigit then s.takeWhile Char.isDigit
      else if isSpecial c then [c]
      else s.takeWhile isNameChar
    | [] => []
  match s.drop name.length with
  | [] => if name = [] then .modified [] [] [] quoted else .parameter name quoted
  | rest =>
    if name = ['#'] then .modified rest "length".toList [] quoted
    else
      match operators.find? (·.isPrefixOf rest) with
      | some o => .modified name o (rest.drop o.length) quoted
      | none => .modified name [] [] quoted

def expansion (quoted : Bool) (s : List Char) : Piece × List Char :=
  match s with
  | '(' :: '(' :: s =>
    let (e, rest) := expressionText 0 s
    (.arithmetic e quoted, rest)
  | '(' :: s =>
    let (script, rest) := enclosed '(' ')' 0 .nothing s
    (.output script quoted, rest)
  | '\x7b' :: s =>
    let (inside, rest) := enclosed '\x7b' '\x7d' 0 .nothing s
    (braced quoted inside, rest)
  | c :: s =>
    if isSpecial c then (.parameter [c] quoted, s)
    else if isNameChar c then
      (.parameter ((c :: s).takeWhile isNameChar) quoted, (c :: s).dropWhile isNameChar)
    else (.text ['$'] quoted, c :: s)
  | [] => (.text ['$'] quoted, [])

/-- The pieces of a text in double quotes, after the opening one, and what follows the closing one.
Without a `closed` end the text goes on to where it stops, and double quotes are plain text. -/
def doubleQuoted (closed : Bool) : (limit : Nat) → List Char → Option (Word × List Char)
  | _, [] => if closed then none else some ([], [])
  | 0, _ => none
  | limit + 1, '\\' :: c :: s => do
    let (ps, rest) ← doubleQuoted closed limit s
    let special := c = '$' ∨ c = '\\' ∨ c = backquote ∨ closed ∧ c = '"'
    let taken := if c = '\n' then [] else if special then [c] else ['\\', c]
    return (.text taken true :: ps, rest)
  | limit + 1, c :: s =>
    if closed ∧ c = '"' then some ([], s)
    else
      let (p, s) :=
        if c = '$' then expansion true s
        else if c = backquote then
          let (script, s) := backquoted s
          (.output script true, s)
        else (.text [c] true, s)
      do
        let (ps, rest) ← doubleQuoted closed limit s
        return (p :: ps, rest)

/-- A text in which only dollar signs, backslashes and scripts are looked at. -/
def looseWord (s : List Char) : Word :=
  ((doubleQuoted false s.length s).map Prod.fst).getD []

/-- What double quotes with these pieces between them make of a word: an empty text is one too, but
no arguments are none. -/
def quotedParts (inside : Word) : Word :=
  if inside = [.parameter ['@'] true] then inside else .text [] true :: inside

/-- The pieces of a word and what follows it. A word ends before a character of a class. -/
def readWord (ends : Char → Bool) : (limit : Nat) → List Char → Option (Word × List Char)
  | _, [] => some ([], [])
  | 0, _ => none
  | limit + 1, c :: s =>
    if ends c then some ([], c :: s)
    else if c = '\'' then
      match s.dropWhile (· ≠ '\'') with
      | [] => none
      | _ :: rest => do
        let (ps, rest) ← readWord ends limit rest
        return (.text (s.takeWhile (· ≠ '\'')) true :: ps, rest)
    else if c = '"' then do
      let (inside, s) ← doubleQuoted true limit s
      let (ps, rest) ← readWord ends limit s
      return (quotedParts inside ++ ps, rest)
    else if c = '\\' then
      match s with
      | [] => some ([.text ['\\'] true], [])
      | d :: s => do
        let (ps, rest) ← readWord ends limit s
        return (if d = '\n' then ps else .text [d] true :: ps, rest)
    else if c = '$' then do
      let (p, s) := expansion false s
      let (ps, rest) ← readWord ends limit s
      return (p :: ps, rest)
    else if c = backquote then do
      let (script, s) := backquoted s
      let (ps, rest) ← readWord ends limit s
      return (.output script false :: ps, rest)
    else do
      let (ps, rest) ← readWord ends limit s
      return match ps with
        | .text t false :: ps => (.text (c :: t) false :: ps, rest)
        | ps => (.text [c] false :: ps, rest)

def operandWord (s : List Char) : Word :=
  ((readWord (fun _ => false) s.length s).map Prod.fst).getD [.text s true]

/-- The operand of an operator in double quotes as a word. Further double quotes in it are
dropped. -/
def quotedOperand (s : List Char) : Word :=
  (looseWord s).map fun
    | .text ['"'] true => .text [] true
    | .text ['\\', '"'] true => .text ['"'] true
    | p => p

end BuildPanel.Script
