import BuildPanel.BuildDirectory
import BuildPanel.Proofs.FileSystem.Above
import BuildPanel.Proofs.FileSystem.Furnish

/-!
The build directory is there after it has been ensured, and it is not there after this has failed.
Either way nothing is lost on the way to it, and nothing is added but directories along its path; and
a directory that is there is left alone.
-/

namespace BuildPanel

open FileSystem

namespace BuildDirectory

variable {fs : FileSystem} {path : Path}

theorem ensure_fst (fs : FileSystem) (path : Path) :
    (ensure fs path).1 = (fs.makeAlong path.ancestors).1 := by
  unfold ensure makeDirectories
  obtain ⟨made, outcome⟩ := fs.makeAlong path.ancestors
  cases outcome <;> rfl

theorem ensure_eq_ok :
    (ensure fs path).2 = .ok () ↔ (fs.makeAlong path.ancestors).2 = .ok () := by
  unfold ensure makeDirectories
  obtain ⟨made, outcome⟩ := fs.makeAlong path.ancestors
  cases outcome <;> simp

theorem ensure_furnished (fs : FileSystem) (path : Path) : Furnished fs (ensure fs path).1 := by
  rw [ensure_fst]
  exact makeAlong_furnished fs path.ancestors

theorem resolve_fst (fs : FileSystem) (path : Path) :
    (resolve fs path).1 = (ensure fs path).1 := by
  unfold resolve
  obtain ⟨made, outcome⟩ := ensure fs path
  cases outcome <;> rfl

theorem resolve_eq_ok {dir : Path} :
    (resolve fs path).2 = .ok dir ↔ (ensure fs path).2 = .ok () ∧ path = dir := by
  unfold resolve
  obtain ⟨made, outcome⟩ := ensure fs path
  cases outcome <;> simp

/-- A directory that is there is left alone. -/
theorem ensure_of_isDirectory (there : fs.isDirectory path = true) :
    ensure fs path = (fs, .ok ()) := by
  obtain ⟨above, ancestors⟩ : ∃ above, path.ancestors = path :: above := ⟨_, rfl⟩
  unfold ensure makeDirectories
  rw [ancestors, makeAlong_of_isDirectory there]

theorem resolve_of_isDirectory (there : fs.isDirectory path = true) :
    resolve fs path = (fs, .ok path) := by
  unfold resolve
  rw [ensure_of_isDirectory there]

/-- The directory can be ensured if and only if the path names a directory afterwards. -/
theorem ensure_eq_ok_iff (given : path ≠ []) :
    (ensure fs path).2 = .ok () ↔ (ensure fs path).1.isDirectory path = true := by
  obtain ⟨above, ancestors⟩ : ∃ above, path.ancestors = path :: above := ⟨_, rfl⟩
  rw [ensure_eq_ok, ensure_fst]
  constructor
  · intro made
    rw [ancestors] at made ⊢
    exact (isDirectory_of_makeAlong made).resolve_left given
  · intro there
    cases made : (fs.makeAlong path.ancestors).2 with
    | ok => rfl
    | error fault =>
      rw [isDirectory_of_makeAlong_error made] at there
      cases there

/-- What a call that is to make sure of the build directory has come to, if it answers success just
when `succeeds` holds. -/
structure MadeSure (path : Path) (fs fs' : FileSystem) (succeeds : Prop) : Prop where
  honest : succeeds ↔ (status fs' path).present = true
  /-- Whether or not it succeeds, all is kept, and only directories along the path are added. -/
  made : MadeAlong fs fs' path
  /-- After a success nothing is left to do. -/
  again : succeeds → ensure fs' path = (fs', .ok ()) ∧ resolve fs' path = (fs', .ok path)

theorem madeSure_of_ensure (fs : FileSystem) (given : path ≠ []) :
    MadeSure path fs (ensure fs path).1 ((ensure fs path).2 = .ok ()) := by
  refine ⟨ensure_eq_ok_iff given, ?_, ?_⟩
  · rw [ensure_fst]
    exact madeAlong fs path
  · intro made
    have there := (ensure_eq_ok_iff given).1 made
    exact ⟨ensure_of_isDirectory there, resolve_of_isDirectory there⟩

/-- Ensuring the build directory, and resolving it, succeeds if and only if the directory is there
right afterwards; nothing that lay anywhere is touched, and nothing is added but directories along
the path; and once it has succeeded, doing it again changes nothing and gives the same path. -/
theorem ensure_honest (fs : FileSystem) (path : Path) (given : path ≠ []) :
    MadeSure path fs (ensure fs path).1 ((ensure fs path).2 = .ok ()) ∧
    MadeSure path fs (resolve fs path).1 (∃ dir, (resolve fs path).2 = .ok dir) ∧
    ∀ dir, (resolve fs path).2 = .ok dir → dir = path := by
  have sure := madeSure_of_ensure fs given
  have resolves : (∃ dir, (resolve fs path).2 = .ok dir) ↔ (ensure fs path).2 = .ok () := by
    simp [resolve_eq_ok]
  refine ⟨sure, ?_, fun dir h => (resolve_eq_ok.1 h).2.symm⟩
  rw [resolve_fst, propext resolves]
  exact sure

/-- A link that leads nowhere, and nothing else. -/
def danglingFiles : FileSystem :=
  ⟨[([Path.ofString "l"], .link (Path.ofString "gone"))], []⟩

/-- Two directories are made on a path that goes up from the first one. Behind the link none can be
made. -/
theorem ensure_honest_dangling :
    (status (ensure danglingFiles (Path.ofString "d/../e")).1 (Path.ofString "d/../e")).present =
      true ∧
    (ensure danglingFiles (Path.ofString "d/../e")).2 = .ok () ∧
    (status (ensure danglingFiles (Path.ofString "l/d")).1 (Path.ofString "l/d")).present = false ∧
    (ensure danglingFiles (Path.ofString "l/d")).2 ≠ .ok () := by
  have there : (status (ensure danglingFiles (Path.ofString "d/../e")).1
      (Path.ofString "d/../e")).present = true := by decide +kernel
  have missing : (status (ensure danglingFiles (Path.ofString "l/d")).1
      (Path.ofString "l/d")).present = false := by decide +kernel
  obtain ⟨made, -, -⟩ := ensure_honest danglingFiles (Path.ofString "d/../e") (by decide)
  obtain ⟨refused, -, -⟩ := ensure_honest danglingFiles (Path.ofString "l/d") (by decide)
  exact ⟨there, made.honest.2 there, missing, fun h => nomatch missing ▸ refused.honest.1 h⟩

end BuildDirectory

end BuildPanel
