import BuildPanel.FileSystem.Operations
import BuildPanel.Process.Course

/-!
How a program is found and started. A file that may be run holds machine code, whose behaviour is
the machine's, or begins with a line `#!` that names the program to run it with. A name without a
separator is looked up in the directories of the search path.
-/

namespace BuildPanel

/-- What a program does when it is started with arguments in a directory. -/
abbrev Program := (arguments : List (List UInt8)) → (here : Place) → Course

/-- What starting a program depends on, besides the files. -/
structure Machine where
  /-- What machine code does; `none` for bytes that are no machine code. -/
  native : List UInt8 → Option Program
  searchPath : List Path

structure SpawnFault where
  program : String
  directory : Path
  fault : Fault
  deriving DecidableEq, Repr

def SpawnFault.message (f : SpawnFault) : String :=
  "failed to start `" ++ f.program ++ "` in " ++ f.directory.display ++ ": " ++ f.fault.message

namespace Machine

/-- How many interpreters may call upon another. -/
def interpreterLimit : Nat := 5

/-- How many bytes of a file are looked at to tell what runs it. -/
def headLimit : Nat := 256

/-- Whether a byte separates an interpreter from its argument. -/
def isGap (b : UInt8) : Bool :=
  b = 32 || b = 9

/-- The interpreter that a file names in its first line, and the argument it gives to it. -/
def interpreter? (contents : List UInt8) : Option (Path × Option (List UInt8)) :=
  match contents.take headLimit with
  | 35 :: 33 :: line =>
    let line := (line.takeWhile (· ≠ 10)).dropWhile isGap
    let line := (line.reverse.dropWhile isGap).reverse
    let program := line.takeWhile fun b => !isGap b
    let argument := (line.drop program.length).dropWhile isGap
    if program = [] then none
    else some (program, if argument = [] then none else some argument)
  | _ => none

/-- What a file does when it is run. The path it was found by is handed to its interpreter. -/
def load (m : Machine) (fs : FileSystem) :
    (limit : Nat) → (path : Path) → (arguments : List (List UInt8)) → Except Fault Course
  | 0, _, _ => .error .tooManyLinks
  | limit + 1, path, arguments => do
    match fs.get (← fs.find path) with
    | some (.file contents true) =>
      match m.native contents with
      | some program => return program arguments fs.here
      | none =>
        match interpreter? contents with
        | some (program, argument) =>
          m.load fs limit program (argument.toList ++ path :: arguments)
        | none => throw .malformedProgram
    | _ => throw .permissionDenied

/-- Tries the directories of the search path one after another. A file that may not be run is passed
over, but is reported if nothing else is found. -/
def search (m : Machine) (fs : FileSystem) (name : Name) (arguments : List (List UInt8)) :
    (forbidden : Bool) → List Path → Except Fault Course
  | forbidden, [] => .error (if forbidden then .permissionDenied else .notFound)
  | forbidden, directory :: rest =>
    match m.load fs interpreterLimit (directory.join name) arguments with
    | .ok course => .ok course
    | .error .permissionDenied => m.search fs name arguments true rest
    | .error .notFound => m.search fs name arguments forbidden rest
    | .error .notDirectory => m.search fs name arguments forbidden rest
    | .error fault => .error fault

/-- The course of a program that is started from the current directory. -/
def launch (m : Machine) (fs : FileSystem) (program : Path) (arguments : List (List UInt8)) :
    Except Fault Course :=
  if program = [] then .error .notFound
  else if Path.separator ∈ program then m.load fs interpreterLimit program arguments
  else m.search fs program arguments false m.searchPath

def start (m : Machine) (fs : FileSystem) (directory : Path) (program : String)
    (arguments : List (List UInt8)) : Except SpawnFault Course :=
  let name := Path.ofString program
  let started : Except Fault Course := do
    if 0 ∈ name ∨ 0 ∈ directory ∨ arguments.any (0 ∈ ·) then throw .nulInCommand
    let place ← fs.find directory
    if fs.get place ≠ some .directory then throw .notDirectory
    m.launch (fs.enter place) name arguments
  started.mapError fun fault => ⟨program, directory, fault⟩

end Machine

end BuildPanel
