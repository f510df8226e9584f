/-!
Arithmetic in shell scripts: integers of 64 bits and variables, with the usual operators and their
usual precedence. An expression is read as a tree first, so that what is not chosen is not computed.
-/

namespace BuildPanel.Script

namespace Arithmetic

inductive Token where
  | number (n : Int)
  | name (s : List Char)
  | operator (s : String)
  deriving DecidableEq, Repr

inductive Expression where
  | number (n : Int)
  | name (s : List Char)
  | unary (operator : String) (e : Expression)
  | binary (operator : String) (a b : Expression)
  | choice (c a b : Expression)
  /-- A variable takes a value, or the value that an operator makes of its own and another. -/
  | assign (name : List Char) (operator : String) (e : Expression)
  deriving DecidableEq, Repr

/-- The integer that 64 bits hold of an integer. -/
def wrap (n : Int) : Int :=
  n.bmod (Nat.pow 2 64)

def digitValue (c : Char) : Nat :=
  if c.isDigit then c.toNat - '0'.toNat
  else if c.isLower then c.toNat - 'a'.toNat + 10
  else if c.isUpper then c.toNat - 'A'.toNat + 10
  else 36

/-- The digits of a base at the front of a text as a number, and the rest of the text. -/
def digits (base : Nat) (s : List Char) : Nat × List Char :=
  let own (c : Char) : Bool := digitValue c < base
  ((s.takeWhile own).foldl (fun n c => n * base + digitValue c) 0, s.dropWhile own)

/-- The number at the front of a text, and the rest: hexadecimal after `0x`, octal after `0`. -/
def natural? (s : List Char) : Option (Nat × List Char) :=
  match s with
  | '0' :: x :: d :: s =>
    if (x = 'x' ∨ x = 'X') ∧ digitValue d < 16 then some (digits 16 (d :: s))
    else some (digits 8 ('0' :: x :: d :: s))
  | '0' :: s => some (digits 8 ('0' :: s))
  | c :: s => if c.isDigit then some (digits 10 (c :: s)) else none
  | [] => none

/-- The integer at the front of a text, and the rest. -/
def integerAt? (s : List Char) : Option (Int × List Char) :=
  match s.dropWhile fun c => c = ' ' ∨ c = '\t' ∨ c = '\n' with
  | '-' :: s => (natural? s).map fun (n, rest) => (-(n : Int), rest)
  | '+' :: s => (natural? s).map fun (n, rest) => ((n : Int), rest)
  | s => (natural? s).map fun (n, rest) => ((n : Int), rest)

/-- The integer that a text spells in base ten, with blanks around it. -/
def decimal? (s : List Char) : Option Int :=
  let s := s.filter fun c => c ≠ ' ' ∧ c ≠ '\t' ∧ c ≠ '\n'
  let number (s : List Char) : Option Nat :=
    if s ≠ [] ∧ s.all Char.isDigit then some (Nat.ofDigitChars 10 s 0) else none
  match s with
  | '-' :: s => (number s).map fun n => -(n : Int)
  | '+' :: s => (number s).map fun n => (n : Int)
  | s => (number s).map fun n => (n : Int)

def isWordChar (c : Char) : Bool :=
  c.isAlphanum || c = '_'

/-- The operators of several characters, the longer ones first. -/
def longOperators : List (List Char) :=
  ["<<=", ">>=", "<=", ">=", "==", "!=", "&&", "||", "<<", ">>", "+=", "-=", "*=", "/=", "%=",
    "&=", "|=", "^="].map String.toList

def tokens : (limit : Nat) → List Char → List Token
  | 0, _ => []
  | _, [] => []
  | limit + 1, c :: s =>
    if c = ' ' ∨ c = '\t' ∨ c = '\n' then tokens limit s
    else
      match natural? (c :: s) with
      | some (n, rest) => .number n :: tokens limit rest
      | none =>
        if isWordChar c then
          .name ((c :: s).takeWhile isWordChar) :: tokens limit ((c :: s).dropWhile isWordChar)
        else
          match longOperators.find? (·.isPrefixOf (c :: s)) with
          | some o => .operator (String.ofList o) :: tokens limit ((c :: s).drop o.length)
          | none => .operator (String.ofList [c]) :: tokens limit s

/-- The binary operators from the loosest to the tightest. -/
def levels : List (List String) :=
  [["||"], ["&&"], ["|"], ["^"], ["&"], ["==", "!="], ["<=", ">=", "<", ">"], ["<<", ">>"],
    ["+", "-"], ["*", "/", "%"]]

/-- The operator with which an assignment combines the old value and the new one. -/
def combined? (o : String) : Option String :=
  [("=", ""), ("+=", "+"), ("-=", "-"), ("*=", "*"), ("/=", "/"), ("%=", "%"), ("<<=", "<<"),
    (">>=", ">>"), ("&=", "&"), ("|=", "|"), ("^=", "^")].lookup o

mutual

/-- An assignment, or a choice between two values, or a value. -/
def readChoice : (limit : Nat) → List Token → Except String (Expression × List Token)
  | 0, _ => .error "expecting primary"
  | limit + 1, .name s :: .operator o :: ts =>
    match combined? o with
    | some o => do
      let (e, ts) ← readChoice limit ts
      return (.assign s o e, ts)
    | none => readChoiceAfter limit (.name s :: .operator o :: ts)
  | limit + 1, ts => readChoiceAfter limit ts

/-- A choice between two values, or a value. -/
def readChoiceAfter : (limit : Nat) → List Token → Except String (Expression × List Token)
  | 0, _ => .error "expecting primary"
  | limit + 1, ts => do
    match ← readLevel limit levels ts with
    | (c, .operator "?" :: ts) =>
      match ← readChoice limit ts with
      | (a, .operator ":" :: ts) =>
        let (b, ts) ← readChoiceAfter limit ts
        return (.choice c a b, ts)
      | _ => throw "expecting ':'"
    | other => return other

/-- An expression of operators at least as tight as the first of the levels. -/
def readLevel : (limit : Nat) → List (List String) → List Token →
    Except String (Expression × List Token)
  | 0, _, _ => .error "expecting primary"
  | limit + 1, [], ts => readOperand limit ts
  | limit + 1, now :: tighter, ts => do
    let (a, ts) ← readLevel limit tighter ts
    readLevelAfter limit now tighter a ts

/-- The further operands of one level. -/
def readLevelAfter : (limit : Nat) → List String → List (List String) → Expression →
    List Token → Except String (Expression × List Token)
  | 0, _, _, _, _ => .error "expecting primary"
  | limit + 1, now, tighter, a, ts =>
    match ts with
    | .operator o :: rest =>
      if now.contains o then do
        let (b, rest) ← readLevel limit tighter rest
        readLevelAfter limit now tighter (.binary o a b) rest
      else .ok (a, ts)
    | _ => .ok (a, ts)

/-- A number, a variable, a sign before an operand, or an expression in parentheses. -/
def readOperand : (limit : Nat) → List Token → Except String (Expression × List Token)
  | 0, _ => .error "expecting primary"
  | limit + 1, ts =>
    match ts with
    | .number n :: ts => .ok (.number n, ts)
    | .name s :: ts => .ok (.name s, ts)
    | .operator "(" :: ts => do
      match ← readChoice limit ts with
      | (a, .operator ")" :: ts) => return (a, ts)
      | _ => throw "expecting ')'"
    | .operator o :: ts =>
      if ["-", "+", "!", "~"].contains o then do
        let (a, ts) ← readOperand limit ts
        return (.unary o a, ts)
      else .error "expecting primary"
    | [] => .error "expecting primary"

end

def ofBool (b : Bool) : Int :=
  if b then 1 else 0

def bits (n : Int) : Nat :=
  (n % (Nat.pow 2 64 : Nat)).toNat

def apply (o : String) (a b : Int) : Except String Int :=
  match o with
  | "|" => .ok (wrap (bits a ||| bits b : Nat))
  | "^" => .ok (wrap (Nat.xor (bits a) (bits b) : Nat))
  | "&" => .ok (wrap (bits a &&& bits b : Nat))
  | "==" => .ok (ofBool (a = b))
  | "!=" => .ok (ofBool (a ≠ b))
  | "<=" => .ok (ofBool (a ≤ b))
  | ">=" => .ok (ofBool (b ≤ a))
  | "<" => .ok (ofBool (a < b))
  | ">" => .ok (ofBool (b < a))
  | "<<" => .ok (wrap (a * (Nat.pow 2 (bits b % 64) : Nat)))
  | ">>" => .ok (a.fdiv (Nat.pow 2 (bits b % 64) : Nat))
  | "+" => .ok (wrap (a + b))
  | "-" => .ok (wrap (a - b))
  | "*" => .ok (wrap (a * b))
  | "/" => if b = 0 then .error "division by zero" else .ok (wrap (a.tdiv b))
  | "%" => if b = 0 then .error "division by zero" else .ok (wrap (a.tmod b))
  | _ => .ok b

def negate (o : String) (a : Int) : Int :=
  match o with
  | "-" => wrap (-a)
  | "!" => ofBool (a = 0)
  | "~" => -a - 1
  | _ => a

/-- The values of the variables: those that the expression has given, and the others. -/
abbrev Values := List (List Char × Int)

/-- The value of an expression, with the variables that it gives a value. -/
def Expression.value (other : List Char → Except String Int) :
    Expression → Values → Except String (Int × Values)
  | .number n, vs => .ok (n, vs)
  | .name s, vs =>
    match vs.lookup s with
    | some n => .ok (n, vs)
    | none => (other s).map (·, vs)
  | .unary o e, vs => do
    let (a, vs) ← e.value other vs
    return (negate o a, vs)
  | .binary "&&" a b, vs => do
    let (x, vs) ← a.value other vs
    if x = 0 then return (0, vs)
    let (y, vs) ← b.value other vs
    return (ofBool (y ≠ 0), vs)
  | .binary "||" a b, vs => do
    let (x, vs) ← a.value other vs
    if x ≠ 0 then return (1, vs)
    let (y, vs) ← b.value other vs
    return (ofBool (y ≠ 0), vs)
  | .binary o a b, vs => do
    let (x, vs) ← a.value other vs
    let (y, vs) ← b.value other vs
    return (← apply o x y, vs)
  | .choice c a b, vs => do
    let (x, vs) ← c.value other vs
    if x ≠ 0 then a.value other vs else b.value other vs
  | .assign s o e, vs => do
    let (y, vs) ← e.value other vs
    let old ← if o = "" then pure 0 else
      match vs.lookup s with
      | some n => pure n
      | none => other s
    let n ← apply o old y
    return (n, (s, n) :: vs.filter (·.1 ≠ s))

def complaint (fault : String) (s : List Char) : List Char :=
  ("arithmetic expression: " ++ fault ++ ": \"").toList ++ s ++ ['"']

/-- The integer that the value of a variable stands for. -/
def ofValue (value : List Char) : Except (List Char) Int :=
  if value = [] then .ok 0
  else
    match integerAt? value with
    | some (n, []) => .ok (wrap n)
    | _ => .error ("Illegal number: ".toList ++ value)

/-- The value of an expression and the variables that it gives a value, or a complaint. -/
def eval (value : List Char → List Char) (s : List Char) : Except (List Char) (Int × Values) :=
  let ts := tokens s.length s
  if ts = [] then .ok (0, [])
  else
    match readChoice (26 * ts.length + 26) ts with
    | .error fault => .error (complaint fault s)
    | .ok (_, _ :: _) => .error (complaint "expecting EOF" s)
    | .ok (e, []) =>
      let other (s : List Char) : Except String Int :=
        (ofValue (value s)).mapError String.ofList
      match e.value other [] with
      | .ok found => .ok found
      | .error "division by zero" => .error (complaint "division by zero" s)
      | .error fault => .error fault.toList

end Arithmetic

end BuildPanel.Script
