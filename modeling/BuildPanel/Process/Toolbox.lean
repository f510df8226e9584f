import BuildPanel.Process.Machine
import BuildPanel.Script.Run

/-!
A small machine: the shell and a few programs, found by name. Their machine code is a mark that
nothing else begins with, followed by the program's name.
-/

namespace BuildPanel

namespace Toolbox

open Script

def tools : List String :=
  "sh" :: programs

/-- Runs a program from its start to its end. -/
def run (tool : String) (arguments : List (List UInt8)) (fs : FileSystem) :
    List UInt8 × FileSystem × ExitStatus :=
  let words := arguments.map ofBytes
  if tool = "sh" then runShell words fs
  else
    let st := State.initial fs tool.toList words
    let after := ((program? st tool words).map Prod.fst).getD st
    (toBytes after.written.reverse.flatten, after.files, .code after.status)

def program (tool : String) : Program := fun arguments here =>
  .ofRun fun fs =>
    let (written, fs', status) := run tool arguments (fs.enter here)
    (written, fs'.enter fs.here, status)

def machine : Machine where
  native contents := do
    let tool ← codedProgram? contents
    if tools.contains tool then some (program tool) else none
  searchPath := ["/usr/local/bin", "/usr/bin", "/bin"].map Path.ofString

/-- The place of a path without links and dots. -/
def placeOf (path : String) : Place :=
  (Path.ofString path).names

/-- The places that lead to a place, and the place itself. -/
def placesTo (p : Place) : List Place :=
  (List.range p.length).map fun n => p.take (n + 1)

/-- The files of the machine when nothing has been done yet but to make a directory and to go
there. -/
def files (here : String) : FileSystem :=
  let directories := ["/usr/bin", "/tmp", here].flatMap fun p => placesTo (placeOf p)
  let bare : FileSystem := directories.foldl (fun fs p => fs.put p .directory) ⟨[], placeOf here⟩
  let linked := bare.put (placeOf "/bin") (.link (Path.ofString "usr/bin"))
  tools.foldl
    (fun fs tool => fs.put (placeOf "/usr/bin" ++ [Path.ofString tool]) (.file (code tool) true))
    linked

end Toolbox

end BuildPanel
