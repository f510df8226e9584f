import BuildPanel.Declaration
import BuildPanel.FileSystem.Operations

/-!
Declarations in a file. The file must be text; what stands in it is never refused.
-/

namespace BuildPanel

structure Declaration.ReadFault where
  path : Path
  fault : Fault
  deriving DecidableEq, Repr

def Declaration.ReadFault.message (f : Declaration.ReadFault) : String :=
  "cannot read " ++ f.path.display ++ ": " ++ f.fault.message

def OptionSet.scanFile (fs : FileSystem) (path : Path) :
    Except Declaration.ReadFault OptionSet :=
  match fs.readText path with
  | .ok text => .ok (.scan text)
  | .error fault => .error ⟨path, fault⟩

end BuildPanel
