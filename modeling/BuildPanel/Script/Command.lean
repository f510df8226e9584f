import BuildPanel.Script.Token

/-!
The commands of a shell script and how they are read from tokens. A script is read one line at a
time, where a line goes on as long as a command in it does; a fault in a line does not keep the
lines before it from being run.
-/

namespace BuildPanel.Script

inductive Command where
  | skip
  /-- Assignments and words, in the line of that number. -/
  | simple (line : Nat) (assignments : List (List Char × Word)) (words : List Word)
      (redirects : List Redirect)
  | seq (first second : Command)
  | both (first second : Command)
  | either (first second : Command)
  | negate (command : Command)
  | piped (first second : Command)
  /-- A command that changes nothing for those after it but files. -/
  | subshell (command : Command)
  | background (command : Command)
  | define (name : List Char) (body : Command)
  /-- The body again and again, as long as the condition's success is as it is said. -/
  | loop (success : Bool) (condition body : Command)
  | each (name : List Char) (words : List Word) (body : Command)
  | branch (condition yes no : Command)
  /-- The first command that has a pattern which the word matches. -/
  | choose (word : Word) (clauses : List (List Word × Command))
  | redirected (command : Command) (redirects : List Redirect)
  /-- A script that is still to be read. -/
  | script (text : List Char)

inductive Expected where
  | several
  | word (s : String)
  | loopName
  deriving DecidableEq, Repr

/-- A token that does not fit, and what had to stand there. -/
structure Misfit where
  token : Token
  expected : Expected

/-- What is read from the front of some tokens, and the tokens after it. -/
abbrev Front (α : Type) := α × List Token

/-- The words that mean something to the shell where a command begins. -/
def reservedWords : List String :=
  ["!", "\x7b", "\x7d", "case", "do", "done", "elif", "else", "esac", "fi", "for", "if", "then",
    "until", "while"]

/-- A word without quotes and parts to be filled in. -/
def plain? : Token → Option String
  | .word [.text s false] _ => some (String.ofList s)
  | _ => none

def inQuotes (s : String) : String :=
  "\"" ++ s ++ "\""

def Mark.text : Mark → String
  | .lineEnd => "newline"
  | .semicolon => inQuotes ";"
  | .doubleSemicolon => inQuotes ";;"
  | .ampersand => inQuotes "&"
  | .and => inQuotes "&&"
  | .or => inQuotes "||"
  | .pipe => inQuotes "|"
  | .opening => inQuotes "("
  | .closing => inQuotes ")"
  | .ending | .broken => "end of file"

def Token.text (t : Token) : String :=
  match t with
  | .mark m _ => m.text
  | .redirect .. => "redirection"
  | t =>
    match plain? t with
    | some w => if reservedWords.contains w then inQuotes w else "word"
    | none => "word"

def Token.line : Token → Nat
  | .word _ line | .mark _ line => line
  | .redirect .. => 1

def Misfit.message (m : Misfit) : String :=
  match m.token, m.expected with
  | .mark .broken _, _ => "Syntax error: Unterminated quoted string"
  | _, .loopName => "Syntax error: Bad for loop variable"
  | t, .several => "Syntax error: " ++ t.text ++ " unexpected"
  | t, .word e => "Syntax error: " ++ t.text ++ " unexpected (expecting " ++ inQuotes e ++ ")"

/-- The first token does not fit. -/
def misfit {α : Type} (expected : Expected) (ts : List Token) : Except Misfit (Front α) :=
  .error ⟨ts.head?.getD (.mark .ending 1), expected⟩

def endsList (t : Token) : Bool :=
  match t with
  | .mark .closing _ | .mark .doubleSemicolon _ | .mark .ending _ => true
  | t => (plain? t).any (["then", "do", "done", "fi", "else", "elif", "esac", "\x7d"].contains ·)

/-- The tokens after a word, if it is the first. -/
def after? (word : String) : List Token → Option (List Token)
  | t :: ts => if plain? t = some word then some ts else none
  | [] => none

def expect (word : String) (ts : List Token) : Except Misfit (List Token) :=
  match after? word ts with
  | some ts => .ok ts
  | none => .error ⟨ts.head?.getD (.mark .ending 1), .word word⟩

def skipLines : List Token → List Token
  | .mark .lineEnd _ :: ts => skipLines ts
  | ts => ts

def redirects : List Token → Except Misfit (Front (List Redirect))
  | .redirect n kind :: .word w _ :: ts => do
    let (rs, rest) ← redirects ts
    return ((n, kind w) :: rs, rest)
  | .redirect .. :: ts => misfit .several ts
  | ts => .ok ([], ts)

def assignment? : Word → Option (List Char × Word)
  | .text s false :: rest =>
    let name := s.takeWhile (· ≠ '=')
    if isName name && name.length < s.length then
      let value := s.drop (name.length + 1)
      some (name, if value = [] then rest else .text value false :: rest)
    else none
  | _ => none

def simpleParts : List Token → Except Misfit (List (Word × Nat) × Front (List Redirect))
  | .word w line :: ts => do
    let (ws, rs, rest) ← simpleParts ts
    return ((w, line) :: ws, rs, rest)
  | .redirect n kind :: .word w _ :: ts => do
    let (ws, rs, rest) ← simpleParts ts
    return (ws, (n, kind w) :: rs, rest)
  | .redirect .. :: ts => (misfit .several ts).map fun r => ([], r)
  | ts => .ok ([], [], ts)

def readSimple (ts : List Token) : Except Misfit (Front Command) := do
  let (ws, rs, rest) ← simpleParts ts
  let assigned := (ws.takeWhile fun w => (assignment? w.1).isSome).filterMap (assignment? ·.1)
  let words := ws.drop assigned.length
  if ws = [] ∧ rs = [] then misfit .several ts
  else return (.simple ((ws.head?.map Prod.snd).getD 1) assigned (words.map Prod.fst) rs, rest)

def wordsOfLine : List Token → List Word × List Token
  | .word w _ :: ts =>
    let (ws, rest) := wordsOfLine ts
    (w :: ws, rest)
  | ts => ([], ts)

/-- The patterns of a clause, up to the parenthesis that ends them. -/
def patterns : List Token → Except Misfit (Front (List Word))
  | .mark .opening _ :: ts => patterns ts
  | .word w _ :: .mark .pipe _ :: ts => (patterns ts).map fun (ws, rest) => (w :: ws, rest)
  | .word w _ :: .mark .closing _ :: ts => .ok ([w], ts)
  | .word _ _ :: ts => misfit (.word ")") ts
  | ts => misfit .several ts

/-- Passes over one mark that may stand between the head of a loop and its body. -/
def skipSemicolon : List Token → List Token
  | .mark .semicolon _ :: ts => skipLines ts
  | ts => skipLines ts

def withRedirects (c : Command) (ts : List Token) : Except Misfit (Front Command) := do
  match ← redirects ts with
  | ([], ts) => return (c, ts)
  | (rs, ts) => return (.redirected c rs, ts)

mutual

/-- Commands one after another, in several lines or in a single one. -/
def readList (lines : Bool) : (limit : Nat) → List Token → Except Misfit (Front Command)
  | 0, ts => misfit .several ts
  | limit + 1, ts =>
    match if lines then skipLines ts else ts with
    | [] => .ok (.skip, [])
    | .mark .lineEnd l :: ts => .ok (.skip, .mark .lineEnd l :: ts)
    | t :: ts =>
      if endsList t then .ok (.skip, t :: ts)
      else do
        let (c, rest) ← readChain limit (t :: ts)
        match rest with
        | .mark .semicolon _ :: rest =>
          let (d, rest) ← readList lines limit rest
          return (.seq c d, rest)
        | .mark .ampersand _ :: rest =>
          let (d, rest) ← readList lines limit rest
          return (.seq (.background c) d, rest)
        | .mark .lineEnd l :: rest =>
          if lines then
            let (d, rest) ← readList lines limit rest
            return (.seq c d, rest)
          else return (c, .mark .lineEnd l :: rest)
        | rest => return (c, rest)

/-- Commands joined by `&&` and `||`, which bind alike and to the left. -/
def readChain : (limit : Nat) → List Token → Except Misfit (Front Command)
  | 0, ts => misfit .several ts
  | limit + 1, ts => do
    let (c, rest) ← readPipe limit ts
    readChainAfter limit c rest

def readChainAfter : (limit : Nat) → Command → List Token → Except Misfit (Front Command)
  | 0, _, ts => misfit .several ts
  | limit + 1, c, ts =>
    match ts with
    | .mark .and _ :: ts => do
      let (d, rest) ← readPipe limit (skipLines ts)
      readChainAfter limit (.both c d) rest
    | .mark .or _ :: ts => do
      let (d, rest) ← readPipe limit (skipLines ts)
      readChainAfter limit (.either c d) rest
    | ts => .ok (c, ts)

def readPipe : (limit : Nat) → List Token → Except Misfit (Front Command)
  | 0, ts => misfit .several ts
  | limit + 1, ts =>
    match after? "!" ts with
    | some ts =>
      if (after? "!" ts).isSome then misfit .several ts
      else (readPipe limit ts).map fun (c, rest) => (.negate c, rest)
    | none => do
      let (c, rest) ← readCommand limit ts
      match rest with
      | .mark .pipe _ :: rest =>
        let (d, rest) ← readPipe limit (skipLines rest)
        return (.piped c d, rest)
      | rest => return (c, rest)

/-- Commands of which there is at least one, unless the script has ended. -/
def readBody : (limit : Nat) → List Token → Except Misfit (Front Command)
  | 0, ts => misfit .several ts
  | limit + 1, ts =>
    let ts := skipLines ts
    match ts with
    | .mark .ending l :: ts => .ok (.skip, .mark .ending l :: ts)
    | t :: rest => if endsList t then misfit .several ts else readList true limit (t :: rest)
    | [] => misfit .several []

/-- Commands between two words, the second of which must be there. -/
def readUpTo : (limit : Nat) → (word : String) → List Token → Except Misfit (Front Command)
  | 0, _, ts => misfit .several ts
  | limit + 1, word, ts => do
    let (c, ts) ← readBody limit ts
    return (c, ← expect word ts)

/-- What follows the condition of a branch. -/
def readBranch : (limit : Nat) → List Token → Except Misfit (Front Command)
  | 0, ts => misfit .several ts
  | limit + 1, ts => do
    let (condition, ts) ← readUpTo limit "then" ts
    let (yes, ts) ← readBody limit ts
    match after? "elif" ts with
    | some ts =>
      let (no, ts) ← readBranch limit ts
      return (.branch condition yes no, ts)
    | none =>
      match after? "else" ts with
      | some ts =>
        let (no, ts) ← readUpTo limit "fi" ts
        return (.branch condition yes no, ts)
      | none => return (.branch condition yes .skip, ← expect "fi" ts)

def readClauses : (limit : Nat) → List Token → Except Misfit (Front (List (List Word × Command)))
  | 0, ts => misfit .several ts
  | limit + 1, ts =>
    let ts := skipLines ts
    match after? "esac" ts with
    | some ts => .ok ([], ts)
    | none => do
      let (ps, ts) ← patterns ts
      let (c, ts) ← readList true limit ts
      match skipLines ts with
      | .mark .doubleSemicolon _ :: ts =>
        let (others, ts) ← readClauses limit ts
        return ((ps, c) :: others, ts)
      | ts =>
        match after? "esac" ts with
        | some ts => return ([(ps, c)], ts)
        | none => misfit (.word ";;") ts

def readCommand : (limit : Nat) → List Token → Except Misfit (Front Command)
  | 0, ts => misfit .several ts
  | limit + 1, ts =>
    match ts with
    | .mark .opening _ :: ts => do
      match ← readBody limit ts with
      | (c, .mark .closing _ :: ts) => withRedirects (.subshell c) ts
      | (_, ts) => misfit (.word ")") ts
    | .word [.text name false] _ :: .mark .opening _ :: .mark .closing _ :: ts => do
      let (c, ts) ← readCommand limit (skipLines ts)
      return (.define name c, ts)
    | .word _ _ :: .mark .opening _ :: ts => misfit (.word ")") ts
    | t :: rest =>
      match plain? t with
      | some "\x7b" => do
        let (c, ts) ← readUpTo limit "\x7d" rest
        withRedirects c ts
      | some "while" => do
        let (c, ts) ← readUpTo limit "do" rest
        let (b, ts) ← readUpTo limit "done" ts
        withRedirects (.loop true c b) ts
      | some "until" => do
        let (c, ts) ← readUpTo limit "do" rest
        let (b, ts) ← readUpTo limit "done" ts
        withRedirects (.loop false c b) ts
      | some "for" => do
        match rest with
        | .word [.text name false] _ :: ts =>
          if !isName name then throw ⟨.word [.text name false] 1, .loopName⟩
          let (ws, ts) := match after? "in" (skipLines ts) with
            | some ts => wordsOfLine ts
            | none => ([[.parameter ['@'] true]], ts)
          let ts ← expect "do" (skipSemicolon ts)
          let (b, ts) ← readUpTo limit "done" ts
          withRedirects (.each name ws b) ts
        | ts => misfit .loopName ts
      | some "if" => do
        let (c, ts) ← readBranch limit rest
        withRedirects c ts
      | some "case" => do
        match rest with
        | .word w _ :: ts =>
          let ts ← expect "in" (skipLines ts)
          let (clauses, ts) ← readClauses limit ts
          withRedirects (.choose w clauses) ts
        | ts => misfit .several ts
      | some w => if reservedWords.contains w then misfit .several ts else readSimple ts
      | none => readSimple ts
    | [] => misfit .several []

end

/-- The command in the first line of some tokens and the tokens after it; `none` at the end. -/
def readLine (ts : List Token) : Except Misfit (Option (Command × List Token)) :=
  match skipLines ts with
  | [] | .mark .ending _ :: _ => .ok none
  | ts => do
    match ← readList false (10 * ts.length + 10) ts with
    | (c, .mark .lineEnd _ :: ts) => return some (c, ts)
    | (c, .mark .ending l :: ts) => return some (c, .mark .ending l :: ts)
    | (_, ts) => .error ⟨ts.head?.getD (.mark .ending 1), .several⟩

end BuildPanel.Script
