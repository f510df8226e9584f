import BuildPanel.Script.Expansion

/-!
Redirections: what a command's descriptors are connected to while it runs, and what is put back
afterwards. The paths and numbers in them have been filled in before.
-/

namespace BuildPanel.Script

def Redirection.word : Redirection → Word
  | .toFile w | .toEndOfFile w | .fromFile w | .fromText w | .same w => w

def Redirection.withWord (w : Word) : Redirection → Redirection
  | .toFile _ => .toFile w
  | .toEndOfFile _ => .toEndOfFile w
  | .fromFile _ => .fromFile w
  | .fromText _ => .fromText w
  | .same _ => .same w

def Redirection.isInput : Redirection → Bool
  | .fromFile _ | .fromText _ => true
  | _ => false

namespace State

/-- Whether a fault means that there is nothing where a path leads. -/
def isMissing (fault : Fault) : Bool :=
  fault = .notFound || fault = .notDirectory

def cannotCreate (p : List Char) (fault : Fault) : List Char :=
  let words := if isMissing fault then "Directory nonexistent" else fault.text
  "cannot create ".toList ++ p ++ ": ".toList ++ words.toList

def cannotOpen (p : List Char) (fault : Fault) : List Char :=
  let words := if isMissing fault then "No such file" else fault.text
  "cannot open ".toList ++ p ++ ": ".toList ++ words.toList

def close (st : State) (descriptor : Nat) : State :=
  { st with
    sinks := st.sinks.filter (·.1 ≠ descriptor)
    input := if descriptor = 0 then [] else st.input }

/-- Connects a descriptor to a file that has been opened with an outcome. -/
def connectTo (st : State) (descriptor : Nat) (p : List Char)
    (opened : Except Fault FileSystem) : Except (List Char) State :=
  if p = void then .ok (st.connect descriptor .nowhere)
  else (do
    let files ← opened
    let place ← files.find (State.path p)
    return { st with files }.connect descriptor (.file place)).mapError (cannotCreate p)

/-- Connects a descriptor as a redirection says, or tells why it cannot. -/
def redirect (st : State) (r : Redirect) : Except (List Char) State :=
  let (descriptor, target) := r
  let s := st.text target.word
  match target with
  | .toFile _ => st.connectTo descriptor s (st.files.write (State.path s) [])
  | .toEndOfFile _ => st.connectTo descriptor s (st.files.append (State.path s) [])
  | .fromText _ => .ok { st with input := s }
  | .fromFile _ =>
    if s = void then .ok { st with input := [] }
    else
      match st.files.read (State.path s) with
      | .ok contents => .ok { st with input := ofBytes contents }
      | .error .isDirectory => .ok { st with input := [] }
      | .error fault => .error (cannotOpen s fault)
  | .same _ =>
    if s = ['-'] then .ok (st.close descriptor)
    else if s = [] ∨ !s.all Char.isDigit then .error "Syntax error: Bad fd number".toList
    else if s = ['0'] then .ok st
    else
      match st.sinks.lookup (Nat.ofDigitChars 10 s 0) with
      | some sink => .ok (st.connect descriptor sink)
      | none => .error (s ++ ": Bad file descriptor".toList)

/-- Puts back the connections that a command's redirections have changed. -/
def restore (outer : State) (rs : List Redirect) (st : State) : State :=
  { st with
    sinks := outer.sinks
    input := if rs.any (·.2.isInput) then outer.input else st.input }

/-- What is written to a taker of output, who takes no more, and the state without it. -/
def take (st : State) (taker : Nat) : List Char × State :=
  let own := st.caught.filter (·.1 = taker)
  ((own.reverse.map Prod.snd).flatten, { st with caught := st.caught.filter (·.1 ≠ taker) })

/-- What a command in a shell of its own leaves behind: files, output, its status, and what is left
of the input. -/
def afterSubshell (outer st : State) : State :=
  { outer with
    files := st.files.enter outer.files.here
    status := st.status
    written := st.written
    caught := st.caught
    input := st.input }

end State

/-- How the shell goes on after a shell of its own has ended in a way. -/
def Flow.afterSubshell : Flow → Flow
  | .killed n => .killed n
  | _ => .on

end BuildPanel.Script
