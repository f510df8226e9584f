import BuildPanel.Script.State

/-!
Filling in words: parameters are replaced by their values, unquoted values are split at blanks, and
unquoted patterns are replaced by the names of files that match.
-/

namespace BuildPanel.Script

/-- Where a character of a field comes from. -/
inductive Provenance where
  | plain
  | quoted
  /-- It belongs to an unquoted value. -/
  | filled
  deriving DecidableEq, Repr

/-- A field under construction. -/
abbrev Field := List (Char × Provenance)

/-- Whether a character separates the fields of an unquoted value. -/
def isSplitter (c : Char) : Bool :=
  c = ' ' || c = '\t' || c = '\n'

/-- Fields under construction: the finished ones, the latest first, and the open one. -/
structure Fields where
  finished : List Field
  current : Option Field

namespace Fields

def add (fs : Fields) (s : Field) : Fields :=
  { fs with current := some (fs.current.getD [] ++ s) }

def close (fs : Fields) : Fields :=
  match fs.current with
  | some f => ⟨f :: fs.finished, none⟩
  | none => fs

def addSplit (fs : Fields) (s : List Char) : Fields :=
  s.foldl (fun fs c => if isSplitter c then fs.close else fs.add [(c, .filled)]) fs

def addAll (fs : Fields) (arguments : List (List Char)) : Fields :=
  match arguments with
  | [] => fs
  | first :: rest =>
    rest.foldl (fun fs a => fs.close.add (a.map (·, .quoted)))
      (fs.add (first.map (·, .quoted)))

end Fields

def Fields.addPiece (st : State) (fs : Fields) : Piece → Fields
  | .text s quoted => fs.add (s.map (·, if quoted then .quoted else .plain))
  | .filled s => fs.addSplit s
  | .parameter ['@'] true => fs.addAll st.arguments
  | .parameter name quoted =>
    if quoted then fs.add ((st.value name).map (·, .quoted)) else fs.addSplit (st.value name)
  | _ => fs

/-- The fields of a word before file names are filled in. All that has to be run for the word has
been run before and stands as text in it. -/
def State.fields (st : State) (w : Word) : List Field :=
  (w.foldl (Fields.addPiece st) ⟨[], none⟩).close.finished.reverse

def Field.toText (f : Field) : List Char :=
  f.map Prod.fst

/-- The text of a word that is not split, with where its characters come from. -/
def State.whole (st : State) (w : Word) : Field :=
  w.flatMap fun p =>
    match p with
    | .text s quoted => s.map (·, if quoted then .quoted else .plain)
    | .filled s => s.map (·, .filled)
    | .parameter name quoted => (st.value name).map (·, if quoted then .quoted else .filled)
    | _ => []

def State.text (st : State) (w : Word) : List Char :=
  (st.whole w).toText

def isSign (c : Char × Provenance) : Bool :=
  c.2 ≠ .quoted && (c.1 = '*' || c.1 = '?' || c.1 = '[')

/-- The characters between the brackets of a pattern: whether they are those that do not match, and
the rest of the pattern. -/
def bracket? (p : Field) : Option (Bool × List Char × Field) :=
  let (negated, p) := match p with
    | ('!', .plain) :: p => (true, p)
    | p => (false, p)
  let inside := p.takeWhile fun c => c.1 ≠ ']'
  match p.drop inside.length with
  | _ :: rest => if inside = [] then none else some (negated, inside.map Prod.fst, rest)
  | [] => none

/-- Whether a character is one of those between brackets, among which a dash stands for a range. -/
def inBracket (c : Char) : List Char → Bool
  | a :: '-' :: b :: rest => (a ≤ c && c ≤ b) || inBracket c rest
  | a :: rest => a = c || inBracket c rest
  | [] => false

def isMatch : (limit : Nat) → Field → List Char → Bool
  | 0, _, _ => false
  | _, [], s => s.isEmpty
  | limit + 1, c :: p, s =>
    if isSign c then
      match c.1 with
      | '*' =>
        isMatch limit p s ||
          match s with
          | _ :: s => isMatch limit (c :: p) s
          | [] => false
      | '?' =>
        match s with
        | _ :: s => isMatch limit p s
        | [] => false
      | _ =>
        match bracket? p, s with
        | some (negated, inside, rest), x :: s =>
          (inBracket x inside != negated) && isMatch limit rest s
        | some _, [] => false
        | none, x :: s => x = '[' && isMatch limit p s
        | none, [] => false
    else
      match s with
      | x :: s => x = c.1 && isMatch limit p s
      | [] => false

/-- Whether a text matches a pattern as a whole. -/
def matchesWhole (p : Field) (s : List Char) : Bool :=
  isMatch (p.length + s.length + 1) p s

/-- What is left of a text without the shortest or the longest part at an end that matches a
pattern. -/
def without (atEnd longest : Bool) (p : Field) (s : List Char) : List Char :=
  let counts := (List.range (s.length + 1)).filter fun n =>
    matchesWhole p (if atEnd then s.drop (s.length - n) else s.take n)
  match if longest then counts.getLast? else counts.head? with
  | some n => if atEnd then s.take (s.length - n) else s.drop n
  | none => s

/-- The paths that match a pattern whose parts between separators are given, below a path. -/
def State.matching (st : State) : (below : List Char) → List Field → List (List Char)
  | below, [] => [below]
  | below, part :: rest =>
    let last := rest.isEmpty
    if part.any isSign then
      match st.files.find (if below = [] then Path.self else State.path below) with
      | .error _ => []
      | .ok place =>
        let names := (st.files.list place).map ofBytes
        let hidden := part.head?.any (·.1 = '.')
        let found := names.filter fun n => (hidden || n.head? ≠ some '.') && matchesWhole part n
        found.flatMap fun n =>
          if last then [below ++ n] else st.matching (below ++ n ++ ['/']) rest
    else
      let p := below ++ part.toText
      if last then if (st.files.findEntry (State.path p)).isOk then [p] else []
      else st.matching (p ++ ['/']) rest

def State.namesFor (st : State) (f : Field) : List (List Char) :=
  if f.any isSign then
    match st.matching [] (f.splitOnP fun c => c.1 = '/') with
    | [] => [f.toText]
    | found => found
  else [f.toText]

def State.expand (st : State) (ws : List Word) : List (List Char) :=
  (ws.flatMap st.fields).flatMap st.namesFor

end BuildPanel.Script
