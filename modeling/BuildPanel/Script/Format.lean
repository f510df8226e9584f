import BuildPanel.Script.Arithmetic

/-!
What `echo` and `printf` write: escapes, and conversions with flags, width and precision.
-/

namespace BuildPanel.Script.Format

def isOctal (c : Char) : Bool :=
  '0' ≤ c ∧ c ≤ '7'

/-- The character of an octal number of at most so many digits, and what follows. -/
def octal (longest : Nat) (s : List Char) : Char × List Char :=
  let digits := (s.take longest).takeWhile isOctal
  (Char.ofNat (Nat.ofDigitChars 8 digits 0 % 256), s.drop digits.length)

/-- The characters that letters after a backslash stand for. -/
def letters : List (Char × Char) :=
  [('a', '\x07'), ('b', '\x08'), ('e', '\x1b'), ('f', '\x0c'), ('n', '\n'), ('r', '\r'),
    ('t', '\t'), ('v', '\x0b'), ('\\', '\\')]

/-- Who resolves escapes. The shell's own commands know less of them than the programs do. -/
inductive Dialect where
  | shell
  | program
  deriving DecidableEq, Repr

def hexValue? (c : Char) : Option Nat :=
  let n := Arithmetic.digitValue c
  if n < 16 then some n else none

/-- The character of a hexadecimal number of one or two digits, and what follows. -/
def hexadecimal? : List Char → Option (Char × List Char)
  | c :: d :: s =>
    match hexValue? c, hexValue? d with
    | some m, some n => some (Char.ofNat (16 * m + n), s)
    | some m, none => some (Char.ofNat m, d :: s)
    | none, _ => none
  | [c] => (hexValue? c).map fun m => (Char.ofNat m, [])
  | [] => none

/-- What an escape stands for, after its backslash, and what follows. In a text that is written,
unlike a format, a zero may stand before the three digits of an octal number. -/
def escape (dialect : Dialect) (written : Bool) (s : List Char) : List Char × List Char :=
  match s with
  | d :: s =>
    if dialect = .program ∧ d = 'x' then
      match hexadecimal? s with
      | some (x, s) => ([x], s)
      | none => (['\\', d], s)
    else if written ∧ d = '0' then
      let (x, s) := octal 3 s
      ([x], s)
    else if isOctal d then
      let (x, s) := octal 3 (d :: s)
      ([x], s)
    else (((letters.lookup d).map fun x => [x]).getD ['\\', d], s)
  | [] => (['\\'], [])

/-- At most so many characters of a text with its escapes resolved, and whether it asks to stop
there. -/
def resolveUpTo (dialect : Dialect) : (limit : Nat) → List Char → List Char × Bool
  | 0, _ => ([], false)
  | _, [] => ([], false)
  | _, '\\' :: 'c' :: _ => ([], true)
  | limit + 1, c :: s =>
    let (x, s) := if c = '\\' then escape dialect true s else ([c], s)
    let (t, stop) := resolveUpTo dialect limit s
    (x ++ t, stop)

def resolve (dialect : Dialect) (s : List Char) : List Char × Bool :=
  resolveUpTo dialect s.length s

structure Layout where
  left : Bool
  zeros : Bool
  plus : Bool
  space : Bool
  based : Bool
  width : Nat
  precision : Option Nat

def Layout.fill (l : Layout) (numeric : Bool) (sign body : List Char) : List Char :=
  let missing := l.width - (sign.length + body.length)
  if l.left then sign ++ body ++ List.replicate missing ' '
  else if numeric && l.zeros && l.precision.isNone then
    sign ++ List.replicate missing '0' ++ body
  else List.replicate missing ' ' ++ sign ++ body

/-- The digits of a number, of which a precision asks for a least count. -/
def Layout.digits (l : Layout) (base n : Nat) : List Char :=
  let digits := Nat.toDigits base n
  List.replicate (l.precision.getD 0 - digits.length) '0' ++ digits

def Layout.signed (l : Layout) (n : Int) : List Char :=
  let sign := if n < 0 then ['-'] else if l.plus then ['+'] else if l.space then [' '] else []
  l.fill true sign (l.digits 10 n.natAbs)

def Layout.unsigned (l : Layout) (base : Nat) (upper : Bool) (n : Nat) : List Char :=
  let digits := l.digits base n
  let digits := if upper then digits.map Char.toUpper else digits
  let shown := l.based && n ≠ 0
  if base = 16 then l.fill true (if shown then ['0', if upper then 'X' else 'x'] else []) digits
  else if base = 8 ∧ shown ∧ digits.head? ≠ some '0' then l.fill true [] ('0' :: digits)
  else l.fill true [] digits

def Layout.text (l : Layout) (s : List Char) : List Char :=
  l.fill false [] (match l.precision with
    | some n => s.take n
    | none => s)

/-- The number that a format gives, or takes from its arguments. -/
def readCount (s : List Char) (arguments : List (List Char)) :
    Int × List Char × List (List Char) :=
  match s with
  | '*' :: s => (((arguments.head?.bind Arithmetic.decimal?).getD 0), s, arguments.drop 1)
  | s =>
    let digits := s.takeWhile Char.isDigit
    (Nat.ofDigitChars 10 digits 0, s.drop digits.length, arguments)

/-- Flags, width and precision, what follows, and the arguments that are left. -/
def readLayout (s : List Char) (arguments : List (List Char)) :
    Layout × List Char × List (List Char) :=
  let flags := s.takeWhile (['-', '0', '+', ' ', '#'].contains ·)
  let (width, s, arguments) := readCount (s.drop flags.length) arguments
  let (precision, s, arguments) := match s with
    | '.' :: s =>
      let (n, s, arguments) := readCount s arguments
      (some n.toNat, s, arguments)
    | s => (none, s, arguments)
  (⟨flags.contains '-' || width < 0, flags.contains '0', flags.contains '+', flags.contains ' ',
    flags.contains '#', width.natAbs, precision⟩, s, arguments)

/-- The number that an argument stands for, between two bounds, and a complaint if it is none. A
quote before a character asks for its code. -/
def number (least most : Int) (s : List Char) : Int × Option (List Char) :=
  match s with
  | [] => (0, none)
  | c :: rest =>
    if c = '"' ∨ c = '\'' then (((rest.head?.map Char.toNat).getD 0 : Nat), none)
    else
      match Arithmetic.integerAt? s with
      | none => (0, some (s ++ ": expected numeric value".toList))
      | some (n, rest) =>
        let far := n < least ∨ most < n
        let n := if n < least then least else if most < n then most else n
        if rest ≠ [] then (n, some (s ++ ": not completely converted".toList))
        else if far then (n, some (s ++ ": Numerical result out of range".toList))
        else (n, none)

/-- The bound of a number of 64 bits with a sign. -/
def half : Int := (Nat.pow 2 63 : Nat)

/-- The bound of a number of 64 bits without a sign. -/
def full : Int := (Nat.pow 2 64 : Nat)

/-- What becomes of a format and its arguments. -/
structure Printed where
  text : List Char
  complaints : List (List Char)
  left : List (List Char)
  stop : Bool
  faulty : Bool

/-- Puts a text, and perhaps a complaint, before what is printed. -/
def Printed.after (text : List Char) (complaint : Option (List Char)) (p : Printed) : Printed :=
  { p with text := text ++ p.text, complaints := complaint.toList ++ p.complaints }

def Printed.fault (complaint : List Char) (arguments : List (List Char)) : Printed :=
  ⟨[], [complaint], arguments, true, true⟩

def pass (dialect : Dialect) : (limit : Nat) → (format : List Char) →
    (arguments : List (List Char)) → Printed
  | _, [], arguments => ⟨[], [], arguments, false, false⟩
  | 0, _, arguments => ⟨[], [], arguments, true, false⟩
  | limit + 1, c :: s, arguments =>
    let on (text : List Char) (s : List Char) (arguments : List (List Char)) : Printed :=
      (pass dialect limit s arguments).after text none
    if c = '\\' then
      if dialect = .program ∧ s.head? = some 'c' then ⟨[], [], arguments, true, false⟩
      else
        let (x, s) := escape dialect false s
        on x s arguments
    else if c ≠ '%' then on [c] s arguments
    else
      match s with
      | '%' :: s => on ['%'] s arguments
      | s =>
        let (l, rest, arguments) := readLayout s arguments
        let first := arguments.head?.getD []
        let left := arguments.drop 1
        let natural (base : Nat) (upper : Bool) (s : List Char) : Printed :=
          let (n, complaint) := number (-full) (full - 1) first
          (pass dialect limit s left).after (l.unsigned base upper (n % full).toNat) complaint
        match rest with
        | [] => .fault "missing format character".toList arguments
        | 's' :: s => on (l.text first) s left
        | 'b' :: s =>
          let (t, stop) := resolve dialect first
          if stop then ⟨l.text t, [], left, true, false⟩ else on (l.text t) s left
        | 'c' :: s => on (l.text [first.head?.getD '\x00']) s left
        | 'd' :: s | 'i' :: s =>
          let (n, complaint) := number (-half) (half - 1) first
          (pass dialect limit s left).after (l.signed n) complaint
        | 'u' :: s => natural 10 false s
        | 'o' :: s => natural 8 false s
        | 'x' :: s => natural 16 false s
        | 'X' :: s => natural 16 true s
        | d :: after =>
          let directive := '%' :: s.take (s.length - (d :: after).length + 1)
          .fault (directive ++ ": invalid directive".toList) arguments

/-- What `printf` comes to. The format is used again for arguments that are left. -/
def printf (dialect : Dialect) (format : List Char) : (limit : Nat) →
    (arguments : List (List Char)) → Printed
  | 0, arguments => ⟨[], [], arguments, true, false⟩
  | limit + 1, arguments =>
    let p := pass dialect format.length format arguments
    if p.stop || p.left.isEmpty || p.left.length = arguments.length then p
    else
      let q := printf dialect format limit p.left
      { q with text := p.text ++ q.text, complaints := p.complaints ++ q.complaints }

def joined (words : List (List Char)) : List Char :=
  List.intercalate [' '] words

/-- What the shell's own `echo` writes: escapes are resolved, and `-n` leaves out the line end. -/
def shellEcho (words : List (List Char)) : List Char :=
  let bare := words.head? = some ['-', 'n']
  let (text, stop) := resolve .shell (joined (if bare then words.drop 1 else words))
  if bare || stop then text else text ++ ['\n']

/-- Whether a word is made of letters that `echo` takes as options. -/
def isEchoOption (w : List Char) : Bool :=
  match w with
  | '-' :: letters => letters ≠ [] && letters.all (['n', 'e', 'E'].contains ·)
  | _ => false

/-- What the program `echo` writes: `-n` leaves out the line end and `-e` resolves escapes. -/
def programEcho (words : List (List Char)) : List Char :=
  let options := (words.takeWhile isEchoOption).flatten
  let text := joined (words.dropWhile isEchoOption)
  let escapes := (options.filter fun c => c = 'e' ∨ c = 'E').getLast? = some 'e'
  let (text, stop) := if escapes then resolve .program text else (text, false)
  if options.contains 'n' || stop then text else text ++ ['\n']

end BuildPanel.Script.Format
