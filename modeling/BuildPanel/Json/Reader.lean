import BuildPanel.Json.Number
import BuildPanel.Json.Text

/-!
Reading JSON as values of a known shape. A reader takes the bytes that are left, and gives a value
and the bytes after it, or a refusal. Objects are read in the order in which they stand, so the
first fault met is the one reported. Parts of a value that the shape does not know are skipped
without a limit on their nesting.
-/

namespace BuildPanel.Json

/-- A way to read a value from the front of the remaining bytes. -/
abbrev Reader (α : Type) := Input → Except Failure (α × Input)

def isSpace (b : UInt8) : Bool :=
  b = 32 || b = 10 || b = 9 || b = 13

/-- The bytes from the next token on. -/
def skipSpace (s : Input) : Input :=
  s.dropWhile isSpace

/-- The rest of a word whose first letter has been read. -/
def readWord : List UInt8 → Input → Except Failure Input
  | [], s => .ok s
  | _ :: _, [] => .error (.before .endInValue [])
  | w :: ws, b :: s => if b = w then readWord ws s else .error (.before .expectedIdent s)

/-- The rest of `null`, `true` and `false`. -/
def afterN : List UInt8 := [117, 108, 108]

@[inherit_doc afterN]
def afterT : List UInt8 := [114, 117, 101]

@[inherit_doc afterN]
def afterF : List UInt8 := [97, 108, 115, 101]

/-- The refusal of a value of another type. The value is read as far as a message has to name it,
and a fault in it goes first. -/
def otherType (expected : String) (s : Input) : Failure :=
  let found (value : Found) (rest : Input) : Failure :=
    .before (.mismatch (.invalidType value expected)) rest
  match s with
  | [] => .at .expectedValue []
  | b :: r =>
    if b = 110 then
      match readWord afterN r with
      | .ok rest => found .null rest
      | .error f => f
    else if b = 116 then
      match readWord afterT r with
      | .ok rest => found (.boolean true) rest
      | .error f => f
    else if b = 102 then
      match readWord afterF r with
      | .ok rest => found (.boolean false) rest
      | .error f => f
    else if b = 45 then
      match readNumber true r with
      | .ok (n, rest) => found n.found rest
      | .error f => f
    else if isDigit b then
      match readNumber false s with
      | .ok (n, rest) => found n.found rest
      | .error f => f
    else if b = 34 then
      match readString r with
      | .ok (text, rest) => found (.string text) rest
      | .error f => f
    else if b = 91 then found .sequence s
    else if b = 123 then found .map s
    else .at .expectedValue s

def readBool : Reader Bool := fun s =>
  match skipSpace s with
  | [] => .error (.before .endInValue [])
  | b :: r =>
    if b = 116 then (readWord afterT r).map (true, ·)
    else if b = 102 then (readWord afterF r).map (false, ·)
    else .error (otherType "a boolean" (b :: r))

def readText : Reader String := fun s =>
  match skipSpace s with
  | [] => .error (.before .endInValue [])
  | b :: r =>
    if b = 34 then (readString r).map fun (text, rest) => (String.ofList text, rest)
    else .error (otherType "a string" (b :: r))

/-- A value or `null`. -/
def readOptional {α : Type} (read : Reader α) : Reader (Option α) := fun s =>
  match skipSpace s with
  | 110 :: r => (readWord afterN r).map (none, ·)
  | s => (read s).map fun (value, rest) => (some value, rest)

def readColon (s : Input) : Except Failure Input :=
  match skipSpace s with
  | 58 :: r => .ok r
  | [] => .error (.before .endInObject [])
  | s => .error (.at .expectedColon s)

/-- What closes a list or an object. -/
inductive Bracket where
  | square
  | curly
  deriving DecidableEq, Repr

def Bracket.close : Bracket → UInt8
  | .square => 93
  | .curly => 125

def Bracket.atEnd : Bracket → Cause
  | .square => .endInList
  | .curly => .endInObject

/-- The fault of something else where a comma or the closing bracket has to stand. -/
def Bracket.noComma : Bracket → Cause
  | .square => .expectedListCommaOrEnd
  | .curly => .expectedObjectCommaOrEnd

def skipName (s : Input) : Except Failure Input :=
  match skipSpace s with
  | 34 :: r =>
    match skipString r with
    | .ok rest => readColon rest
    | .error f => .error f
  | [] => .error (.before .endInObject [])
  | s => .error (.at .keyNotString s)

/-- Where skipping stands: in front of a value, or behind one. -/
inductive SkipState where
  | value
  | done
  deriving DecidableEq, Repr

/-- What follows an opening bracket: the first value inside, or the end of an empty list. -/
def skipOpened (bracket : Bracket) (s : Input) : Except Failure (Bool × Input) :=
  match skipSpace s with
  | [] => .error (.before bracket.atEnd [])
  | b :: r =>
    if b = bracket.close then .ok (true, r)
    else
      match bracket with
      | .square => .ok (false, b :: r)
      | .curly => (skipName (b :: r)).map (false, ·)

/-- What follows a value inside a bracket: a further value, or the end. -/
def skipFollowing (bracket : Bracket) (s : Input) : Except Failure (Bool × Input) :=
  match skipSpace s with
  | [] => .error (.before bracket.atEnd [])
  | b :: r =>
    if b = 44 then
      match bracket with
      | .square => .ok (false, r)
      | .curly => (skipName r).map (false, ·)
    else if b = bracket.close then .ok (true, r)
    else .error (.at bracket.noComma (b :: r))

/-- A value without parts, skipped; `none` if a bracket opens. -/
def skipScalar (b : UInt8) (r : Input) : Except Failure (Option Input) :=
  if b = 110 then (readWord afterN r).map some
  else if b = 116 then (readWord afterT r).map some
  else if b = 102 then (readWord afterF r).map some
  else if b = 45 then (skipNumber r).map some
  else if isDigit b then (skipNumber (b :: r)).map some
  else if b = 34 then (skipString r).map some
  else if b = 91 ∨ b = 123 then .ok none
  else .error (.at .expectedValue (b :: r))

/-- Skips a value, or what follows one, inside the brackets that are open, the innermost first. The
first argument bounds the number of steps: each of them takes an element off it. -/
def skipSteps : Input → SkipState → List Bracket → Input → Except Failure Input
  | _, .done, [], s => .ok s
  | [], _, _, s => .error (.before .endInValue s)
  | _ :: bound, .done, bracket :: outer, s =>
    match skipFollowing bracket s with
    | .error f => .error f
    | .ok (true, rest) => skipSteps bound .done outer rest
    | .ok (false, rest) => skipSteps bound .value (bracket :: outer) rest
  | _ :: bound, .value, outer, s =>
    match skipSpace s with
    | [] => .error (.before .endInValue [])
    | b :: r =>
      match skipScalar b r with
      | .error f => .error f
      | .ok (some rest) => skipSteps bound .done outer rest
      | .ok none =>
        let bracket : Bracket := if b = 91 then .square else .curly
        match skipOpened bracket r with
        | .error f => .error f
        | .ok (true, rest) => skipSteps bound .done outer rest
        | .ok (false, rest) => skipSteps bound .value (bracket :: outer) rest

/-- Any value, skipped. Each step but the last takes at least one byte, so there are at most as many
as the input and one more byte have elements. -/
def skipValue (s : Input) : Except Failure Input :=
  skipSteps (0 :: s) .value [] s

/-- The name of the next member of an object, or `none` at its end, in front of the brace. -/
def readName (first : Bool) (s : Input) : Except Failure (Option (List Char) × Input) :=
  let name (r : Input) := (readString r).map fun (text, rest) => (some text, rest)
  match skipSpace s with
  | [] => .error (.before .endInObject [])
  | b :: r =>
    if b = 125 then .ok (none, b :: r)
    else if first then
      if b = 34 then name r else .error (.at .keyNotString (b :: r))
    else if b = 44 then
      match skipSpace r with
      | [] => .error (.before .endInValue [])
      | c :: r' =>
        if c = 34 then name r'
        else if c = 125 then .error (.at .trailingComma (c :: r'))
        else .error (.at .keyNotString (c :: r'))
    else .error (.at .expectedObjectCommaOrEnd (b :: r))

/-- The name of the next member, a fault in it being one of an unknown member. -/
def readMemberName (first : Bool) (s : Input) : Except Failure (Option (List Char) × Input) :=
  match readName first s with
  | .ok found => .ok found
  | .error f => .error (f.within .unknown)

def readMember {α : Type} (name : List Char) (read : Reader α) (s : Input) :
    Except Failure (α × Input) :=
  match readColon s with
  | .error f => .error f
  | .ok rest =>
    match read rest with
    | .ok found => .ok found
    | .error f => .error (f.within (.member name))

/-- Whether another element of a list follows; if not, the input stands in front of the bracket. -/
def readSeparator (first : Bool) (s : Input) : Except Failure (Bool × Input) :=
  match skipSpace s with
  | [] => .error (.before .endInList [])
  | b :: r =>
    if b = 93 then .ok (false, b :: r)
    else if first then .ok (true, b :: r)
    else if b = 44 then
      match skipSpace r with
      | [] => .error (.before .endInValue [])
      | c :: r' =>
        if c = 93 then .error (.at .trailingComma (c :: r')) else .ok (true, c :: r')
    else .error (.at .expectedListCommaOrEnd (b :: r))

def readElement {α : Type} (index : Nat) (read : Reader α) (s : Input) :
    Except Failure (Option α × Input) :=
  match readSeparator (index = 0) s with
  | .error f => .error f
  | .ok (false, rest) => .ok (none, rest)
  | .ok (true, rest) =>
    match read rest with
    | .ok (value, rest) => .ok (some value, rest)
    | .error f => .error (f.within (.element index))

def readListEnd (s : Input) : Except Failure Input :=
  match skipSpace s with
  | [] => .error (.before .endInList [])
  | b :: r =>
    if b = 93 then .ok r
    else if b = 44 then
      match skipSpace r with
      | 93 :: r' => .error (.at .trailingComma (93 :: r'))
      | s => .error (.at .trailingCharacters s)
    else .error (.at .trailingCharacters (b :: r))

/-- The place at which a mismatch inside an object is reported: behind its brace if that comes
next. -/
def settle (s : Input) : Input :=
  match skipSpace s with
  | 125 :: r => r
  | s => s

/-- A member of a record: its name, how it is read, and what stands for it if it is absent. -/
structure Member (α : Type) where
  name : String
  read : Reader α
  absent : Option α

/-- The members of a record of two members, some of which may have been read before. Unknown members
are skipped. The list bounds the number of steps: each of them takes an element off it. -/
def recordMembers {α β : Type} (a : Member α) (b : Member β) :
    Input → Bool → Option α → Option β → Input → Except Failure ((Option α × Option β) × Input)
  | [], _, _, _, s => .error (.before .endInObject s)
  | _ :: bound, first, x, y, s =>
    match readMemberName first s with
    | .error f => .error f
    | .ok (none, rest) => .ok ((x, y), rest)
    | .ok (some name, rest) =>
      if name = a.name.toList then
        if x.isSome then .error (.before (.mismatch (.duplicateMember a.name)) (settle rest))
        else
          match readMember name a.read rest with
          | .error f => .error f
          | .ok (value, rest) => recordMembers a b bound false (some value) y rest
      else if name = b.name.toList then
        if y.isSome then .error (.before (.mismatch (.duplicateMember b.name)) (settle rest))
        else
          match readMember name b.read rest with
          | .error f => .error f
          | .ok (value, rest) => recordMembers a b bound false x (some value) rest
      else
        match readMember name (fun s => (skipValue s).map ((), ·)) rest with
        | .error f => .error f
        | .ok (_, rest) => recordMembers a b bound false x y rest

/-- A record written as an object: its known members in any order, each at most once. -/
def recordObject {α β : Type} (a : Member α) (b : Member β) : Reader (α × β) := fun s =>
  match recordMembers a b (0 :: s) true none none s with
  | .error f => .error f
  | .ok ((x, y), rest) =>
    match x <|> a.absent, y <|> b.absent with
    | some x, some y => .ok ((x, y), settle rest)
    | none, _ => .error (.before (.mismatch (.missingMember a.name)) (settle rest))
    | _, none => .error (.before (.mismatch (.missingMember b.name)) (settle rest))

def recordList {α β : Type} (type : String) (a : Member α) (b : Member β) : Reader (α × β) :=
  fun s =>
    match readElement 0 a.read s with
    | .error f => .error f
    | .ok (x, rest) =>
      match x <|> a.absent with
      | none => .error (.before (.mismatch (.invalidLength 0 type)) (rest.drop 1))
      | some x' =>
        match readElement (if x.isSome then 1 else 0) b.read rest with
        | .error f => .error f
        | .ok (y, rest) =>
          match y <|> b.absent with
          | none => .error (.before (.mismatch (.invalidLength 1 type)) (rest.drop 1))
          | some y => (readListEnd rest).map ((x', y), ·)

def readRecord {α β : Type} (type : String) (a : Member α) (b : Member β) : Reader (α × β) :=
  fun s =>
    match skipSpace s with
    | [] => .error (.before .endInValue [])
    | c :: r =>
      if c = 91 then recordList type a b r
      else if c = 123 then recordObject a b r
      else .error (otherType ("struct " ++ type) (c :: r))

/-- The members of an object of any names, folded in their order. The list bounds the number of
steps: each of them takes an element off it. -/
def foldMembers {α σ : Type} (read : Reader α) (add : σ → String → α → σ) :
    Input → Bool → σ → Input → Except Failure (σ × Input)
  | [], _, _, s => .error (.before .endInObject s)
  | _ :: bound, first, acc, s =>
    match readMemberName first s with
    | .error f => .error f
    | .ok (none, rest) => .ok (acc, settle rest)
    | .ok (some name, rest) =>
      match readMember name read rest with
      | .error f => .error f
      | .ok (value, rest) =>
        foldMembers read add bound false (add acc (String.ofList name) value) rest

def readMap {α σ : Type} (read : Reader α) (add : σ → String → α → σ) (start : σ) : Reader σ :=
  fun s =>
    match skipSpace s with
    | [] => .error (.before .endInValue [])
    | c :: r =>
      if c = 123 then foldMembers read add (0 :: r) true start r
      else .error (otherType "a map" (c :: r))

/-- The value of a text that holds nothing else. -/
def readWhole {α : Type} (read : Reader α) (s : Input) : Except Failure α :=
  match read s with
  | .error f => .error f
  | .ok (value, rest) =>
    match skipSpace rest with
    | [] => .ok value
    | s => .error (.at .trailingCharacters s)

/-- The value at the front of a text, whatever follows it. -/
def readFront {α : Type} (read : Reader α) (s : Input) : Except Failure α :=
  (read s).map Prod.fst

end BuildPanel.Json
