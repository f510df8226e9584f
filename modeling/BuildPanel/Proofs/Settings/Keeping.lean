import BuildPanel.Proofs.FileSystem.Furnish
import BuildPanel.Proofs.Settings.Saving

/-!
What becomes of the snapshot while something else happens. Where nothing happens on the way to it
but that missing directories are made, a snapshot that is there stays; one that is not there can
only come to light if a path through a missing directory led to it. Saving that fails does no more
than to make directories above the snapshot, and saving that succeeds writes no other file.
-/

namespace BuildPanel

namespace Settings

open FileSystem

variable {K : Place → Prop} {fs fs' : FileSystem} {path : Path} {options : OptionSet}

theorem load_eq_some : load fs path = .ok (some options) ↔
    ∃ text, fs.readText path = .ok text ∧ OptionSet.ofToml text.toList = .ok options := by
  unfold load
  cases fs.readText path with
  | error fault => cases fault <;> simp
  | ok text =>
    simp only [Except.ok.injEq, exists_eq_left']
    cases OptionSet.ofToml text.toList with
    | ok read => simp
    | error why => cases why <;> simp

theorem loadUsable_eq_some : loadUsable fs path = some options ↔
    ∃ text, fs.readText path = .ok text ∧ OptionSet.ofToml text.toList = .ok options := by
  rw [← load_eq_some, loadUsable]
  cases load fs path <;> simp

theorem load_congr (same : fs'.readText path = fs.readText path) :
    load fs' path = load fs path := by
  unfold load
  rw [same]

/-- A snapshot stays where nothing happens but that directories are made. -/
theorem load_of_furnishedOn (h : FurnishedOn K fs fs') (way : LiesIn fs K path)
    (loads : load fs path = .ok (some options)) : load fs' path = .ok (some options) := by
  obtain ⟨text, reads, read⟩ := load_eq_some.1 loads
  have confined := way path (mem_ancestors path)
  exact load_eq_some.2 ⟨text, readText_of_furnishedOn h confined reads, read⟩

/-- There is no snapshot, and none comes to light where directories are made. -/
def Vacant (fs : FileSystem) (K : Place → Prop) (path : Path) : Prop :=
  ∀ fs', FurnishedOn K fs fs' → ∀ options, load fs' path ≠ .ok (some options)

theorem Vacant.load_ne (h : Vacant fs K path) (options : OptionSet) :
    load fs path ≠ .ok (some options) :=
  h fs (.refl K fs) options

theorem Vacant.of_furnishedOn (h : Vacant fs K path) (furnished : FurnishedOn K fs fs') :
    Vacant fs' K path :=
  fun after more => h after (furnished.trans more)

/-- There is no snapshot where there is no file. -/
theorem vacant_of_no_file (way : LiesIn fs K path)
    (none_ : ∀ q, K q → ∀ contents runnable, fs.get q ≠ some (.file contents runnable)) :
    Vacant fs K path := by
  intro fs' furnished options loads
  obtain ⟨text, reads, -⟩ := load_eq_some.1 loads
  obtain ⟨contents, bytes, -⟩ := readText_eq_ok.1 reads
  obtain ⟨s, runnable, found, lies⟩ := read_eq_ok.1 bytes
  obtain ⟨-, walks, -⟩ := resolve_eq_ok.1 (find_eq_ok.1 found)
  have within : K s := by
    have confined := (way path (mem_ancestors path)).of_growsOn furnished.growsOn
    exact confined.target walks
  rcases furnished.furnishes s within with same | ⟨-, made⟩
  · exact none_ s within contents runnable (same ▸ lies)
  · rw [made] at lies
    cases lies

/-! ### Saving that fails -/

theorem makeParent_furnished (fs : FileSystem) (path : Path) :
    Furnished fs (makeParent fs path).1 := by
  unfold makeParent
  cases path.parent? with
  | none => exact .refl _ fs
  | some parent =>
    have furnished := makeAlong_furnished fs parent.ancestors
    dsimp only [makeDirectories]
    generalize fs.makeAlong parent.ancestors = r at *
    obtain ⟨made, outcome⟩ := r
    cases outcome <;> exact furnished

theorem named_of_makeParent {q : Place} (added : Adds fs (makeParent fs path).1 q) :
    ∃ parent, path.parent? = some parent ∧
      ∃ p ∈ parent.ancestors, (makeParent fs path).1.find p = .ok q := by
  unfold makeParent at *
  cases above : path.parent? with
  | none =>
    rw [above] at added
    exact absurd added.1 added.2
  | some parent =>
    rw [above] at added
    have named := @named_of_makeAlong fs q parent.ancestors
    dsimp only [makeDirectories] at *
    generalize fs.makeAlong parent.ancestors = r at *
    obtain ⟨made, outcome⟩ := r
    refine ⟨parent, rfl, ?_⟩
    cases outcome <;> exact named added

/-- Nothing has happened but that directories above the snapshot have been made. -/
structure OnlyParentsMade (fs fs' : FileSystem) (path : Path) : Prop where
  /-- What lay somewhere lies there still. -/
  kept : ∀ q e, fs.get q = some e → fs'.get q = some e
  /-- What has been added is a directory that a path above the snapshot names. -/
  added : ∀ q, fs.get q = none → fs'.get q ≠ none → fs'.get q = some .directory ∧
    ∃ parent, path.parent? = some parent ∧ ∃ p ∈ parent.ancestors, fs'.find p = .ok q
  here : fs'.here = fs.here
  /-- The snapshot that was there, if there was one, is there still. -/
  loads : ∀ options, load fs path = .ok (some options) → load fs' path = .ok (some options)

/-- Saving that fails has done nothing but to make directories above the snapshot. -/
theorem onlyParentsMade_of_save {fault : AccessFault}
    (fails : save fs path options = (fs', .error fault)) : OnlyParentsMade fs fs' path := by
  obtain rfl : fs' = (makeParent fs path).1 := by
    unfold save at fails
    cases made : makeParent fs path with
    | mk files outcome =>
      rw [made] at fails
      cases outcome with
      | error fault =>
        cases fails
        rfl
      | ok =>
        dsimp only at fails
        cases written : files.write path (document options) with
        | error fault =>
          rw [written] at fails
          cases fails
          rfl
        | ok after =>
          rw [written] at fails
          cases fails
  have furnished := makeParent_furnished fs path
  constructor
  case kept =>
    intro q e lies
    exact furnished.kept trivial lies
  case added =>
    intro q free there
    have added : Adds fs (makeParent fs path).1 q := ⟨free, there⟩
    exact ⟨furnished.directory_of_adds trivial added, named_of_makeParent added⟩
  case here => exact furnished.here
  case loads =>
    intro options loads
    exact load_of_furnishedOn furnished (fun p _ => confined_everywhere fs p) loads

theorem OnlyParentsMade.furnished (h : OnlyParentsMade fs fs' path) : Furnished fs fs' := by
  refine ⟨?_, h.here⟩
  intro q _
  cases free : fs.get q with
  | some e => exact .inl (h.kept q e free)
  | none =>
    by_cases there : fs'.get q = none
    · exact .inl there
    · exact .inr ⟨rfl, (h.added q free there).1⟩

/-! ### Saving that succeeds -/

/-- Saving writes no file but the one that the path of the snapshot then leads to. -/
theorem readText_of_save {other : Path} {text : String}
    (saved : save fs path options = (fs', .ok ())) (apart : fs'.find path ≠ fs'.find other)
    (reads : fs.readText other = .ok text) : fs'.readText other = .ok text := by
  unfold save at saved
  have furnished := makeParent_furnished fs path
  cases parent : makeParent fs path with
  | mk made outcome =>
    rw [parent] at saved furnished
    cases outcome with
    | error fault => cases saved
    | ok =>
      dsimp only at saved
      cases written : made.write path (document options) with
      | error fault =>
        rw [written] at saved
        cases saved
      | ok after =>
        rw [written] at saved
        cases saved
        have reads' := readText_of_furnishedOn furnished (confined_everywhere _ _) reads
        obtain ⟨contents, bytes, decoded⟩ := readText_eq_ok.1 reads'
        obtain ⟨q, runnable, found, lies⟩ := read_eq_ok.1 bytes
        have grown := (write_grown (confined_everywhere made path) written).grows
        have found' := find_grows grown (confined_everywhere _ _) found
        have same := get_of_write (q := q) written (found' ▸ apart)
        refine readText_eq_ok.2 ⟨contents, read_eq_ok.2 ⟨q, runnable, found', ?_⟩, decoded⟩
        rw [same, lies]

end Settings

end BuildPanel
