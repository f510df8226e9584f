import BuildPanel.Script.Arithmetic
import BuildPanel.Script.State

/-!
The command `test`: conditions on texts, integers and files, joined by `-a` and `-o`, with `!` and
parentheses. What a word means depends on how many words there are.
-/

namespace BuildPanel.Script

/-- What is known of the entry that a path leads to, links followed. -/
def State.entry? (st : State) (p : List Char) : Option Entry :=
  match st.files.find (State.path p) with
  | .ok place => st.files.get place
  | .error _ => none

namespace Test

/-- Whether an entry holds something. -/
def hasContents : Entry → Bool
  | .file contents _ => contents ≠ []
  | _ => true

def isRunnable : Entry → Bool
  | .file _ runnable => runnable
  | _ => true

def isFile : Entry → Bool
  | .file .. => true
  | _ => false

def isLink (st : State) (p : List Char) : Bool :=
  match st.files.findEntry (State.path p) with
  | .ok place =>
    match st.files.get place with
    | some (.link _) => true
    | _ => false
  | .error _ => false

def unary? (st : State) (o : List Char) : Option (List Char → Bool) :=
  [("-n", fun a => decide (a ≠ [])), ("-z", fun a => decide (a = [])),
    ("-e", fun a => (st.entry? a).isSome), ("-r", fun a => (st.entry? a).isSome),
    ("-w", fun a => (st.entry? a).isSome), ("-x", fun a => (st.entry? a).any isRunnable),
    ("-d", fun a => decide (st.entry? a = some .directory)),
    ("-f", fun a => (st.entry? a).any isFile), ("-s", fun a => (st.entry? a).any hasContents),
    ("-L", isLink st), ("-h", isLink st), ("-t", fun _ => false), ("-p", fun _ => false),
    ("-b", fun _ => false), ("-c", fun _ => false), ("-S", fun _ => false)].lookup
    (String.ofList o)

def ofTexts? (o : List Char) : Option (List Char → List Char → Bool) :=
  [("=", fun a b => decide (a = b)), ("==", fun a b => decide (a = b)),
    ("!=", fun a b => decide (a ≠ b)), ("<", fun a b => decide (a < b)),
    (">", fun (a b : List Char) => decide (b < a))].lookup (String.ofList o)

def ofIntegers? (o : List Char) : Option (Int → Int → Bool) :=
  [("-eq", fun a b => decide (a = b)), ("-ne", fun a b => decide (a ≠ b)),
    ("-lt", fun a b => decide (a < b)), ("-le", fun a b => decide (a ≤ b)),
    ("-gt", fun a b => decide (b < a)),
    ("-ge", fun (a b : Int) => decide (b ≤ a))].lookup (String.ofList o)

/-- Whether a word is a condition on two words. -/
def isBinary (o : List Char) : Bool :=
  (ofTexts? o).isSome || (ofIntegers? o).isSome

def integer (s : List Char) : Except (List Char) Int :=
  match Arithmetic.decimal? s with
  | some n => if Arithmetic.wrap n = n then .ok n else .error ("Illegal number: ".toList ++ s)
  | none => .error ("Illegal number: ".toList ++ s)

def binary (o a b : List Char) : Except (List Char) Bool := do
  match ofTexts? o with
  | some f => return f a b
  | none =>
    match ofIntegers? o with
    | some f => return f (← integer a) (← integer b)
    | none => return false

/-- Whether the first word is no operator because of what follows it: nothing, or an operator that
takes two words. -/
def isOperand (ws : List (List Char)) : Bool :=
  match ws with
  | [] | [_] => true
  | [_, _] => false
  | _ :: o :: t :: _ => isBinary o && t ≠ [')']

/-- A value and the words after it. -/
abbrev Reading := Except (List Char) (Bool × List (List Char))

mutual

/-- Conditions joined by `-o`. -/
def either (st : State) : (limit : Nat) → List (List Char) → Reading
  | 0, _ => .error "argument expected".toList
  | limit + 1, ws => do
    match ← both st limit ws with
    | (x, ['-', 'o'] :: ws) =>
      let (y, ws) ← either st limit ws
      return (x || y, ws)
    | other => return other

/-- Conditions joined by `-a`. -/
def both (st : State) : (limit : Nat) → List (List Char) → Reading
  | 0, _ => .error "argument expected".toList
  | limit + 1, ws => do
    match ← negated st limit ws with
    | (x, ['-', 'a'] :: ws) =>
      let (y, ws) ← both st limit ws
      return (x && y, ws)
    | other => return other

/-- A condition or its opposite. -/
def negated (st : State) : (limit : Nat) → List (List Char) → Reading
  | 0, _ => .error "argument expected".toList
  | limit + 1, ws =>
    match ws with
    | ['!'] :: rest =>
      if isOperand ws then primary st limit ws
      else do
        let (x, ws) ← negated st limit rest
        return (!x, ws)
    | ws => primary st limit ws

/-- A condition on one or two words, or several in parentheses. -/
def primary (st : State) : (limit : Nat) → List (List Char) → Reading
  | 0, _ => .error "argument expected".toList
  | limit + 1, ws =>
    match ws with
    | [] => .ok (false, [])
    | a :: rest =>
      if a = ['('] ∧ rest.head? = some [')'] then .ok (false, rest.drop 1)
      else if a = ['('] ∧ rest ≠ [] then do
        match ← either st limit rest with
        | (x, [')'] :: ws) => return (x, ws)
        | _ => throw "closing paren expected".toList
      else
        match if isOperand ws then none else unary? st a, rest with
        | some f, b :: ws => .ok (f b, ws)
        | some _, [] => .error (a ++ ": argument expected".toList)
        | none, o :: rest =>
          if isBinary o then
            match rest with
            | b :: ws => (binary o a b).map (·, ws)
            | [] => .error (o ++ ": argument expected".toList)
          else .ok (a ≠ [], o :: rest)
        | none, [] => .ok (a ≠ [], [])

end

/-- The value of some words, all of which it takes. If some are left, the word before them is
blamed. -/
def whole (st : State) (ws : List (List Char)) : Except (List Char) Bool := do
  match ← either st (4 * ws.length + 8) ws with
  | (x, []) => return x
  | (_, left) =>
    let last := ws[ws.length - left.length - 1]?.getD []
    throw (last ++ ": unexpected operator".toList)

/-- The value of the words of a test. Three or four words with `!` before them are the opposite of
the others, and with parentheses around them what stands between. -/
def eval (st : State) : List (List Char) → Except (List Char) Bool
  | [] => .ok false
  | [a, o, b] =>
    if isBinary o then binary o a b
    else if a = ['('] ∧ b = [')'] then whole st [o]
    else if a = ['!'] then (whole st [o, b]).map not
    else whole st [a, o, b]
  | [a, b, c, d] =>
    if a = ['('] ∧ d = [')'] then whole st [b, c]
    else if a = ['!'] then (eval st [b, c, d]).map not
    else whole st [a, b, c, d]
  | ws => whole st ws

end Test

end BuildPanel.Script
