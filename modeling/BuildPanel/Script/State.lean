import BuildPanel.FileSystem.Operations
import BuildPanel.Script.Command

/-!
What a running shell script works on: the files, its variables, functions and arguments, what its
descriptors are connected to, and what it has written to the pipe it was started with.
-/

namespace BuildPanel.Script

inductive Sink where
  /-- To whoever started the script. -/
  | outer
  /-- To whoever takes a command's output in the script itself; those that lie in others have the
  higher numbers. -/
  | captured (taker : Nat)
  | file (place : Place)
  | nowhere
  deriving DecidableEq, Repr

/-- How a command leaves the script. -/
inductive Flow where
  | on
  | exit
  | back
  | killed (signal : Nat)
  /-- So many loops end. -/
  | leave (loops : Nat)
  /-- The loop goes on with its next round, after so many loops inside it have ended. -/
  | again (loops : Nat)
  deriving DecidableEq, Repr

abbrev Bindings := List (List Char × List Char)

/-- A command that is not waited for, and what it is to be run with. -/
structure Job where
  command : Command
  bindings : Bindings
  arguments : List (List Char)
  here : Place
  sinks : List (Nat × Sink)

structure State where
  files : FileSystem
  bindings : Bindings
  /-- The variables that programs are told of. -/
  exported : List (List Char)
  functions : List (List Char × Command)
  /-- In a function, the variables that get their values back at its end. -/
  locals : Option (List (List Char))
  name : List Char
  arguments : List (List Char)
  /-- The number that the script finds as its own among the processes. -/
  process : Nat
  line : Nat
  /-- The command whose text is being run as a script, as it stands in messages. -/
  context : List Char
  status : Nat
  /-- The status of the last script whose output was filled in by the command that is run. -/
  filled : Nat
  sinks : List (Nat × Sink)
  input : List Char
  /-- What is written to the outside, the latest first. -/
  written : List (List Char)
  /-- What is written to those who take a command's output, the latest first. -/
  caught : List (Nat × List Char)
  /-- How many of them there are. -/
  takers : Nat
  /-- The scripts that are run when a signal comes; zero stands for the end of the script. -/
  traps : List (Nat × List Char)
  /-- The commands that are still to be run when the script has nothing else to do. -/
  jobs : List Job
  /-- How many loops the command that is run lies in. -/
  loops : Nat
  /-- Whether a command that fails ends the script. -/
  strict : Bool
  /-- Whether a parameter that has no value ends the script. -/
  demanding : Bool
  /-- Whether the failure of the command that is run is looked at. -/
  tested : Bool

namespace State

def initial (files : FileSystem) (name : List Char) (arguments : List (List Char)) : State where
  files
  bindings := []
  exported := []
  functions := []
  locals := none
  name
  arguments
  process := 4242
  line := 1
  context := []
  status := 0
  filled := 0
  sinks := [(1, .outer), (2, .outer)]
  input := []
  written := []
  caught := []
  takers := 0
  traps := []
  jobs := []
  loops := 0
  strict := false
  demanding := false
  tested := false

def number (n : Nat) : List Char :=
  Nat.toDigits 10 n

/-- The value of a variable, an argument or a special parameter, if it has one. -/
def value? (st : State) (name : List Char) : Option (List Char) :=
  match name with
  | ['#'] => some (number st.arguments.length)
  | ['?'] => some (number st.status)
  | ['$'] => some (number st.process)
  | ['!'] => none
  | ['-'] => some ((if st.strict then ['e'] else []) ++ if st.demanding then ['u'] else [])
  | ['@'] | ['*'] =>
    if st.arguments = [] then none else some (List.intercalate [' '] st.arguments)
  | ['0'] => some st.name
  | _ =>
    if name ≠ [] ∧ name.all Char.isDigit then st.arguments[Nat.ofDigitChars 10 name 0 - 1]?
    else
      match st.bindings.lookup name with
      | some value => some value
      | none =>
        if name = "PWD".toList then some (ofBytes (FileSystem.pathOf st.files.here)) else none

def value (st : State) (name : List Char) : List Char :=
  (st.value? name).getD []

def assign (st : State) (name value : List Char) : State :=
  { st with bindings := (name, value) :: st.bindings.filter (·.1 ≠ name) }

def connect (st : State) (descriptor : Nat) (sink : Sink) : State :=
  { st with sinks := (descriptor, sink) :: st.sinks.filter (·.1 ≠ descriptor) }

/-- Writes to a descriptor. Tells whether it is open. -/
def write (st : State) (descriptor : Nat) (s : List Char) : State × Bool :=
  match st.sinks.lookup descriptor with
  | none => (st, s.isEmpty)
  | some .nowhere => (st, true)
  | some .outer => ({ st with written := s :: st.written }, true)
  | some (.captured n) => ({ st with caught := (n, s) :: st.caught }, true)
  | some (.file place) =>
    match st.files.get place with
    | some (.file contents runnable) =>
      ({ st with files := st.files.put place (.file (contents ++ toBytes s) runnable) }, true)
    | _ => (st, true)

def done (st : State) (status : Nat) : State × Flow :=
  ({ st with status }, .on)

/-- Complains on the error stream and ends a command with a status. -/
def complain (st : State) (message : List Char) (status : Nat) : State × Flow :=
  (st.write 2 (message ++ ['\n'])).1.done status

def complainAt (st : State) (message : List Char) (status : Nat) : State × Flow :=
  st.complain (st.name ++ ": ".toList ++ number st.line ++ ": ".toList ++ message) status

def giveUp (st : State) (message : List Char) (status : Nat) : State × Flow :=
  ((st.complainAt message status).1, .exit)

/-- Complains about what a command is to be run for, in the name of the script. -/
def complainHere (st : State) (message : List Char) (status : Nat) : State × Flow :=
  st.complainAt (st.context ++ message) status

def void : List Char := "/dev/null".toList

def path (s : List Char) : Path :=
  toBytes s

end State

end BuildPanel.Script
