/-!
Keys and strings of TOML. There are four ways to write a string: in double quotes with escapes or in
single quotes without, each also in a triple form that may hold line ends. The writer takes the
first way that fits the text; the reader accepts all of them.

The reader takes the characters that are left and gives a text and the characters after it.
-/

namespace BuildPanel.Toml

/-- A way to read something from the front of the remaining characters. -/
abbrev Reader (α : Type) := List Char → Option (α × List Char)

/-- Controls that may not stand in a document, tab and line feed apart. -/
def isControl (c : Char) : Bool :=
  (c.toNat < 0x20 || c.toNat = 0x7f) && c ≠ '\t' && c ≠ '\n'

def isBare (c : Char) : Bool :=
  c.isAlphanum || c = '_' || c = '-'

def hexDigit (n : Nat) : Char :=
  (Nat.digitChar (n % 16)).toUpper

/-- How one character is written in double quotes; a double quote and a line feed are up to the form
of the string. -/
def escapeChar (c : Char) : List Char :=
  if c = '\x08' then ['\\', 'b']
  else if c = '\t' then ['\\', 't']
  else if c = '\x0c' then ['\\', 'f']
  else if c = '\x0d' then ['\\', 'r']
  else if c = '\\' then ['\\', '\\']
  else if isControl c then ['\\', 'u', '0', '0', hexDigit (c.toNat / 16), hexDigit c.toNat]
  else [c]

/-- How one character is written in double quotes on a single line. -/
def escapeLine (c : Char) : List Char :=
  if c = '"' then ['\\', '"']
  else if c = '\n' then ['\\', 'n']
  else escapeChar c

/-- How a text is written in triple double quotes: every third quote of a run is escaped, so that
three never stand together. The number counts the quotes just before. -/
def escapeLines : Nat → List Char → List Char
  | _, [] => []
  | quotes, c :: rest =>
    if c = '"' then
      if quotes = 2 then '\\' :: '"' :: escapeLines 0 rest else '"' :: escapeLines (quotes + 1) rest
    else escapeChar c ++ escapeLines 0 rest

/-- Whether three equal characters of a kind stand together. -/
def hasTriple (q : Char) (s : List Char) : Bool :=
  match s with
  | a :: b :: c :: rest => (a = q && b = q && c = q) || hasTriple q (b :: c :: rest)
  | _ => false

def basic (s : List Char) : List Char :=
  '"' :: s.flatMap escapeLine ++ ['"']

def literal (s : List Char) : List Char :=
  '\'' :: s ++ ['\'']

/-- The line end after opening triple quotes, which is no part of the text. It is written iff the
text has several lines. -/
def opening (s : List Char) : List Char :=
  if s.contains '\n' then ['\n'] else []

def basicLines (s : List Char) : List Char :=
  ['"', '"', '"'] ++ opening s ++ escapeLines 0 s ++ ['"', '"', '"']

def literalLines (s : List Char) : List Char :=
  ['\'', '\'', '\''] ++ opening s ++ s ++ ['\'', '\'', '\'']

/-- A text as a string, in the first form that fits it. -/
def writeString (s : List Char) : List Char :=
  let plain := !s.any isControl
  let oneLine := !s.contains '\n'
  if plain && oneLine && !s.contains '\\' && !s.contains '"' then basic s
  else if plain && oneLine && !s.contains '\'' then literal s
  else if plain && !s.contains '\\' && !hasTriple '"' s then basicLines s
  else if plain && !hasTriple '\'' s then literalLines s
  else if oneLine then basic s
  else basicLines s

def writeKey (s : List Char) : List Char :=
  let plain := !s.any isControl && !s.contains '\n'
  if !s.isEmpty && s.all isBare then s
  else if plain && !s.contains '\\' && !s.contains '"' then basic s
  else if plain && !s.contains '\'' then literal s
  else basic s

/-- Characters that may stand in a string as they are, line ends apart. -/
def isText (c : Char) : Bool :=
  !isControl c && c ≠ '\n'

def hexValue? (c : Char) : Option Nat :=
  if c.isDigit then some (c.toNat - 48)
  else if 'a' ≤ c ∧ c ≤ 'f' then some (c.toNat - 87)
  else if 'A' ≤ c ∧ c ≤ 'F' then some (c.toNat - 55)
  else none

def hexNumber? (digits : List Char) : Option Nat :=
  digits.foldlM (fun n c => (hexValue? c).map (n * 16 + ·)) 0

/-- The character with a number, unless the number is that of a surrogate or too large. -/
def charOf? (n : Nat) : Option Char :=
  if n.isValidChar then some (Char.ofNat n) else none

def numbered? (digits : List Char) : Option Char :=
  (hexNumber? digits).bind charOf?

def simpleEscape? (c : Char) : Option Char :=
  if c = 'b' then some '\x08'
  else if c = 't' then some '\t'
  else if c = 'n' then some '\n'
  else if c = 'f' then some '\x0c'
  else if c = 'r' then some '\x0d'
  else if c = '"' then some '"'
  else if c = '\\' then some '\\'
  else none

def readEscape : Reader Char
  | 'u' :: a :: b :: c :: d :: rest => (numbered? [a, b, c, d]).map (·, rest)
  | 'U' :: a :: b :: c :: d :: e :: f :: g :: h :: rest =>
    (numbered? [a, b, c, d, e, f, g, h]).map (·, rest)
  | c :: rest => (simpleEscape? c).map (·, rest)
  | [] => none

/-- A line end: a line feed, or a carriage return before one. -/
def readLineEnd : List Char → Option (List Char)
  | '\n' :: rest => some rest
  | '\r' :: '\n' :: rest => some rest
  | _ => none

def isBlank (c : Char) : Bool :=
  c = ' ' || c = '\t'

def skipBlanks (s : List Char) : List Char :=
  s.dropWhile isBlank

/-- The body of a text in double quotes, the characters met before in reverse. The first argument
bounds the number of steps: each of them takes an element off it. -/
def basicBody : List Char → List Char → Reader (List Char)
  | [], _, _ => none
  | _, _, [] => none
  | _ :: bound, met, c :: rest =>
    if c = '"' then some (met.reverse, rest)
    else if c = '\\' then
      match readEscape rest with
      | some (e, rest) => basicBody bound (e :: met) rest
      | none => none
    else if isText c then basicBody bound (c :: met) rest
    else none

/-- A text in double quotes, after the opening quote. Each step takes a character, so the input
itself bounds their number. -/
def readBasic : Reader (List Char) := fun s =>
  basicBody s [] s

def readLiteral : Reader (List Char) := fun s =>
  match s.dropWhile (fun c => isText c && c ≠ '\'') with
  | '\'' :: rest => some (s.takeWhile (fun c => isText c && c ≠ '\''), rest)
  | _ => none

/-- What a run of at least three quotes at the end of a triple form stands for: up to two of them
still belong to the text. -/
def closing (q : Char) (met : List Char) : Reader (List Char)
  | a :: b :: c :: rest =>
    if a = q ∧ b = q ∧ c = q then
      match rest with
      | d :: rest' =>
        if d = q then
          match rest' with
          | e :: rest'' =>
            if e = q then some ((q :: q :: met).reverse, rest'')
            else some ((q :: met).reverse, rest')
          | [] => some ((q :: met).reverse, [])
        else some (met.reverse, rest)
      | [] => some (met.reverse, [])
    else none
  | _ => none

/-- What follows the blanks and line ends at the front. The first argument bounds the number of line
ends: each of them takes an element off it. -/
def skipLines : List Char → List Char → List Char
  | [], s => s
  | _ :: bound, s =>
    match readLineEnd (skipBlanks s) with
    | some rest => skipLines bound rest
    | none => skipBlanks s

/-- The body of a text in triple double quotes, the characters met before in reverse. The first
argument bounds the number of steps: each of them takes an element off it. -/
def basicLinesBody : List Char → List Char → Reader (List Char)
  | [], _, _ => none
  | _, _, [] => none
  | _ :: bound, met, c :: rest =>
    if c = '"' then
      match closing '"' met (c :: rest) with
      | some result => some result
      | none => basicLinesBody bound (c :: met) rest
    else if c = '\\' then
      match readLineEnd (skipBlanks rest) with
      | some rest => basicLinesBody bound met (skipLines rest rest)
      | none =>
        match readEscape rest with
        | some (e, rest) => basicLinesBody bound (e :: met) rest
        | none => none
    else if isText c then basicLinesBody bound (c :: met) rest
    else
      match readLineEnd (c :: rest) with
      | some rest => basicLinesBody bound ('\n' :: met) rest
      | none => none

/-- The body of a text in triple single quotes, the characters met before in reverse. The first
argument bounds the number of steps: each of them takes an element off it. -/
def literalLinesBody : List Char → List Char → Reader (List Char)
  | [], _, _ => none
  | _, _, [] => none
  | _ :: bound, met, c :: rest =>
    if c = '\'' then
      match closing '\'' met (c :: rest) with
      | some result => some result
      | none => literalLinesBody bound (c :: met) rest
    else if isText c then literalLinesBody bound (c :: met) rest
    else
      match readLineEnd (c :: rest) with
      | some rest => literalLinesBody bound ('\n' :: met) rest
      | none => none

/-- The characters after a line end that opening triple quotes are followed by. -/
def skipOpening (s : List Char) : List Char :=
  (readLineEnd s).getD s

def readString : Reader (List Char)
  | '"' :: '"' :: '"' :: rest => basicLinesBody ('"' :: rest) [] (skipOpening rest)
  | '"' :: rest => readBasic rest
  | '\'' :: '\'' :: '\'' :: rest => literalLinesBody ('\'' :: rest) [] (skipOpening rest)
  | '\'' :: rest => readLiteral rest
  | _ => none

/-- A key without dots, in any form that a key may have. -/
def readSimpleKey : Reader (List Char)
  | '"' :: rest => readBasic rest
  | '\'' :: rest => readLiteral rest
  | s =>
    match s.takeWhile isBare with
    | [] => none
    | key => some (key, s.dropWhile isBare)

/-- The most parts of a key. -/
def keyLimit : Nat := 79

/-- The further parts of a dotted key, those met before in reverse. -/
def keyParts : Nat → List (List Char) → Reader (List (List Char))
  | 0, _, _ => none
  | room + 1, met, s =>
    match readSimpleKey (skipBlanks s) with
    | none => none
    | some (part, rest) =>
      match skipBlanks rest with
      | '.' :: rest => keyParts room (part :: met) rest
      | rest => some ((part :: met).reverse, rest)

/-- A key of one or more parts with dots between them, and the blanks around it. -/
def readKey : Reader (List (List Char)) :=
  keyParts keyLimit []

end BuildPanel.Toml
