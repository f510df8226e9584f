import BuildPanel.FileSystem.Operations
import BuildPanel.Options.Toml

/-!
The settings snapshot: one TOML file that holds the option set saved last. Saving replaces the whole
file and makes the directories above it; a file that is not there holds no snapshot.
-/

namespace BuildPanel

namespace Settings

/-- A path on which reading or writing the snapshot failed. -/
structure AccessFault where
  path : Path
  fault : Fault
  deriving DecidableEq, Repr

def AccessFault.message (f : AccessFault) : String :=
  "I/O error accessing settings at " ++ f.path.display ++ ": " ++ f.fault.message

/-- Why no snapshot could be loaded from a file that is there. -/
inductive LoadError where
  | access (fault : AccessFault)
  /-- The file is no TOML document. -/
  | malformed
  /-- The document is no option set. -/
  | mismatched (mismatch : Mismatch)
  deriving DecidableEq, Repr

def document (options : OptionSet) : List UInt8 :=
  Text.encode options.toToml

/-- Makes the directories above the snapshot. -/
def makeParent (fs : FileSystem) (path : Path) : FileSystem × Except AccessFault Unit :=
  match path.parent? with
  | none => (fs, .ok ())
  | some parent =>
    match fs.makeDirectories parent with
    | (fs, .ok ()) => (fs, .ok ())
    | (fs, .error fault) => (fs, .error ⟨parent, fault⟩)

def save (fs : FileSystem) (path : Path) (options : OptionSet) :
    FileSystem × Except AccessFault Unit :=
  match makeParent fs path with
  | (fs, .error fault) => (fs, .error fault)
  | (fs, .ok ()) =>
    match fs.write path (document options) with
    | .ok fs => (fs, .ok ())
    | .error fault => (fs, .error ⟨path, fault⟩)

/-- The snapshot at a path, or `none` if nothing has been saved there. -/
def load (fs : FileSystem) (path : Path) : Except LoadError (Option OptionSet) :=
  match fs.readText path with
  | .error .notFound => .ok none
  | .error fault => .error (.access ⟨path, fault⟩)
  | .ok text =>
    match OptionSet.ofToml text.toList with
    | .ok options => .ok (some options)
    | .error none => .error .malformed
    | .error (some mismatch) => .error (.mismatched mismatch)

/-- The snapshot to merge with: one that cannot be read counts as none. -/
def loadUsable (fs : FileSystem) (path : Path) : Option OptionSet :=
  match load fs path with
  | .ok saved => saved
  | .error _ => none

end Settings

end BuildPanel
