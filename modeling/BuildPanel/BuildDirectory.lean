import BuildPanel.FileSystem.Operations
import BuildPanel.Page

/-!
The build directory: one path, at which a directory is made when it is needed and which is wiped on
demand. After every success the path names a directory.
-/

namespace BuildPanel

namespace BuildDirectory

/-- What went wrong with the build directory at a path. -/
inductive DirectoryError where
  | create (path : Path) (fault : Fault)
  | remove (path : Path) (fault : Fault)
  deriving DecidableEq, Repr

/-- The text shown for a build directory that could not be made or wiped. -/
def DirectoryError.message : DirectoryError → String
  | create path fault =>
    "failed to create build directory " ++ path.display ++ ": " ++ fault.message
  | remove path fault =>
    "failed to remove build directory " ++ path.display ++ ": " ++ fault.message

/-- Makes the directory, and those above it, if they are missing. -/
def ensure (fs : FileSystem) (path : Path) : FileSystem × Except DirectoryError Unit :=
  match fs.makeDirectories path with
  | (fs, .ok ()) => (fs, .ok ())
  | (fs, .error fault) => (fs, .error (.create path fault))

/-- The build directory at a path, which is there from then on. -/
def resolve (fs : FileSystem) (path : Path) : FileSystem × Except DirectoryError Path :=
  match ensure fs path with
  | (fs, .ok ()) => (fs, .ok path)
  | (fs, .error e) => (fs, .error e)

/-- Removes the directory with everything in it. One that is already gone is no error. -/
def wipe (fs : FileSystem) (path : Path) : FileSystem × Except DirectoryError Unit :=
  match fs.removeAll path with
  | (fs, .ok ()) => (fs, .ok ())
  | (fs, .error .notFound) => (fs, .ok ())
  | (fs, .error fault) => (fs, .error (.remove path fault))

/-- Removes the directory with everything in it and makes it anew. -/
def clean (fs : FileSystem) (path : Path) : FileSystem × Except DirectoryError Unit :=
  match wipe fs path with
  | (fs, .ok ()) => ensure fs path
  | (fs, .error e) => (fs, .error e)

def status (fs : FileSystem) (path : Path) : BuildStatus :=
  ⟨fs.isDirectory path, path.display⟩

end BuildDirectory

end BuildPanel
