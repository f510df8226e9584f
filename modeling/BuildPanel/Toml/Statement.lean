import BuildPanel.Toml.Number

/-!
The statements of a TOML document: headers in single or double brackets, and pairs of a key and a
value. A statement takes a line, except that a value may contain line ends. Inline tables are put
together here; how statements make up the tables of a document is the matter of another module.
-/

namespace BuildPanel.Toml

/-- A key of one or more parts. -/
structure Path where
  parents : List Key
  last : Key
  deriving DecidableEq, Repr

def Path.ofParts? (parts : List Key) : Option Path :=
  match parts.reverse with
  | [] => none
  | last :: parents => some ⟨parents.reverse, last⟩

def readPath : Reader Path := fun s => do
  let (parts, rest) ← readKey s
  return (← Path.ofParts? parts, rest)

/-- A line that opens a table or gives a value. -/
inductive Statement where
  | header (path : Path)
  | arrayHeader (path : Path)
  | pair (path : Path) (value : Node)

/-- The end of a comment, after its mark: the rest of the line holds no controls but tabs. -/
def skipComment (s : List Char) : List Char :=
  s.dropWhile isText

/-- What follows the blanks, line ends and comments between the values of an array. The first
argument bounds the number of lines: each of them takes an element off it. -/
def skipFiller : List Char → List Char → Option (List Char)
  | [], s => some s
  | _ :: bound, s =>
    match skipBlanks s with
    | '#' :: rest =>
      match readLineEnd (skipComment rest) with
      | some rest => skipFiller bound rest
      | none => none
    | s =>
      match readLineEnd s with
      | some rest => skipFiller bound rest
      | none => some s

def filler (s : List Char) : Option (List Char) :=
  skipFiller s s

/-- The values of an array after its bracket, those met before in reverse. A comma may stand after
the last one. The list bounds the number of values: each of them takes an element off it. -/
def readElements (item : Reader Node) : List Char → List Node → Reader (List Node)
  | [], _, _ => none
  | _ :: bound, met, s =>
    match filler s with
    | none => none
    | some (']' :: rest) => some (met.reverse, rest)
    | some s =>
      match item s with
      | none => none
      | some (value, rest) =>
        match filler rest with
        | some (',' :: rest) => readElements item bound (value :: met) rest
        | some (']' :: rest) => some ((value :: met).reverse, rest)
        | _ => none

/-- Adds a pair to a table that is written inline. Dotted keys make tables that further dotted keys
may extend; nothing is given twice. -/
def insertInline (last : Key) (value : Node) : List Key → Members → Option Members
  | [], members =>
    match members.find? last with
    | some _ => none
    | none => some (members ++ [(last, value)])
  | parent :: parents, members =>
    match members.find? parent with
    | none =>
      (insertInline last value parents []).map fun inner =>
        members ++ [(parent, .table .dotted inner)]
    | some (.table .dotted inner) =>
      (insertInline last value parents inner).map fun inner =>
        members.put parent (.table .dotted inner)
    | some _ => none

/-- The pairs of an inline table after its brace or a comma. The list bounds their number: each of
them takes an element off it. -/
def readPairs (item : Reader Node) : List Char → Members → Reader Members
  | [], _, _ => none
  | _ :: bound, members, s =>
    match readPath s with
    | some (path, '=' :: rest) =>
      match item (skipBlanks rest) with
      | none => none
      | some (value, rest) =>
        match insertInline path.last value path.parents members with
        | none => none
        | some members =>
          match skipBlanks rest with
          | ',' :: rest => readPairs item bound members rest
          | '\x7d' :: rest => some (members, rest)
          | _ => none
    | _ => none

def readInline (item : Reader Node) : Reader Members := fun s =>
  match skipBlanks s with
  | '\x7d' :: rest => some ([], rest)
  | s => readPairs item s [] s

def readScalar : Reader Scalar
  | 't' :: rest => (stripWord "rue".toList rest).map (.boolean true, ·)
  | 'f' :: rest => (stripWord "alse".toList rest).map (.boolean false, ·)
  | '"' :: rest => (readString ('"' :: rest)).map fun (s, rest) => (.string s, rest)
  | '\'' :: rest => (readString ('\'' :: rest)).map fun (s, rest) => (.string s, rest)
  | s => readNumber s

/-- The deepest nesting of arrays and inline tables. -/
def depthLimit : Nat := 79

/-- A value with so many levels of arrays and inline tables at most. -/
def readValueWithin : Nat → Reader Node
  | 0, s => (readScalar s).map fun (v, rest) => (.scalar v, rest)
  | depth + 1, s =>
    match s with
    | '[' :: rest =>
      (readElements (readValueWithin depth) rest [] rest).map fun (vs, rest) =>
        (.array vs, rest)
    | '\x7b' :: rest =>
      (readInline (readValueWithin depth) rest).map fun (members, rest) =>
        (.table .inline members, rest)
    | s => (readScalar s).map fun (v, rest) => (.scalar v, rest)

def readValue : Reader Node :=
  readValueWithin depthLimit

/-- What may follow a statement on its line: blanks and a comment. -/
def readLineTail (s : List Char) : Option (List Char) :=
  let s :=
    match skipBlanks s with
    | '#' :: rest => skipComment rest
    | s => s
  match s with
  | [] => some []
  | s => readLineEnd s

def readStatement : Reader Statement
  | '[' :: '[' :: rest => do
    let (path, rest) ← readPath rest
    match rest with
    | ']' :: ']' :: rest => return (.arrayHeader path, ← readLineTail rest)
    | _ => none
  | '[' :: rest => do
    let (path, rest) ← readPath rest
    match rest with
    | ']' :: rest => return (.header path, ← readLineTail rest)
    | _ => none
  | s => do
    let (path, rest) ← readPath s
    match rest with
    | '=' :: rest =>
      let (value, rest) ← readValue (skipBlanks rest)
      return (.pair path value, ← readLineTail rest)
    | _ => none

/-- The statements of a document, those met before in reverse. Lines that are empty but for blanks
and a comment are skipped. The first argument bounds the number of lines: each of them takes an
element off it. -/
def readStatements : List Char → List Statement → List Char → Option (List Statement)
  | [], met, s => if s.isEmpty then some met.reverse else none
  | _ :: bound, met, s =>
    match skipBlanks s with
    | [] => some met.reverse
    | c :: rest =>
      if c = '#' ∨ c = '\n' ∨ c = '\r' then
        match readLineTail (c :: rest) with
        | some rest => readStatements bound met rest
        | none => none
      else
        match readStatement (c :: rest) with
        | some (statement, rest) => readStatements bound (statement :: met) rest
        | none => none

/-- The characters after a byte order mark. -/
def skipMark : List Char → List Char
  | '\uFEFF' :: rest => rest
  | s => s

def statements? (text : List Char) : Option (List Statement) :=
  let s := skipMark text
  readStatements s [] s

end BuildPanel.Toml
