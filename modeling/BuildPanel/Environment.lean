import BuildPanel.Path

/-!
The variables that a program is started with, and what the panel takes from them on its own: the
place for builds when none is given.
-/

namespace BuildPanel

/-- The variables that are set, with their values. -/
abbrev Environment := List (String × String)

namespace Environment

def get? (env : Environment) (name : String) : Option String :=
  env.lookup name

/-- The directory for temporary files. -/
def temporary (env : Environment) : Path :=
  Path.ofString ((env.get? "TMPDIR").getD "/tmp")

def buildName : Path :=
  Path.ofString "aimrt_build"

/-- The build directory unless another one is given: below `$TEMP`, or else `$HOME`, or else where
temporary files are kept. -/
def buildDirectory (env : Environment) : Path :=
  let base :=
    match env.get? "TEMP", env.get? "HOME" with
    | some temp, _ => Path.ofString temp
    | none, some home => Path.ofString home
    | none, none => env.temporary
  base.join buildName

end Environment

end BuildPanel
