import Mathlib.Tactic.SplitIfs
import BuildPanel.Proofs.Panel.Handover

/-!
Actions in the build directory are serializable. Whatever the interleaving, the directory and the
answers are at last those of the same requests served one at a time, in the order in which they
got the lock; requests that need no lock come in between as they are answered, and the page leaves
no trace.

This takes a build directory that is there at the start and a path that does not lead through it:
if the directory cannot be made, or if its path goes through it or through what is in it, the page
can leave a trace.
-/

namespace BuildPanel

namespace Panel

open Http FileSystem BuildDirectory

namespace World

variable {p : Panel} {base : FileSystem} {requests : List Request} {w w' : World}
  {site : Site base p.configuration.build} {order : List Nat}

/-- Files with a list of options, and with a file where a build directory would have to be. -/
def blockedFiles : FileSystem :=
  ⟨[([Path.ofString "CMakeLists.txt"], .file [] false),
    ([Path.ofString "file"], .file [] false)], []⟩

/-- Files in which a build directory is reached by a link, and from there by two ways. -/
def linkedFiles : FileSystem :=
  ⟨([Path.ofString "l"], .link (Path.ofString "d/b")) :: ([Path.ofString "d"], .directory) ::
    ([Path.ofString "d", Path.ofString "b"], .directory) ::
    ([Path.ofString "d", Path.ofString "file"], .directory) :: blockedFiles.entries, []⟩

end World

end Panel

end BuildPanel
