import BuildPanel.Proofs.BuildDirectory.Ensuring
import BuildPanel.Proofs.FileSystem.Tree

/-!
Cleaning takes away the build directory with everything in it, or the link that its path ends in, and
nothing else; and it adds nothing but the directory and those above it that are missing. When it
succeeds, the directory is empty, as long as its path does not go up from a directory that is missing
once the build directory has been removed.
-/

namespace BuildPanel

open FileSystem

namespace BuildDirectory

variable {K : Place → Prop} {fs fs' : FileSystem} {path : Path}

theorem wipe_fst (fs : FileSystem) (path : Path) : (wipe fs path).1 = (fs.removeAll path).1 := by
  unfold wipe
  cases fs.removeAll path with
  | mk wiped outcome =>
    cases outcome with
    | ok => rfl
    | error fault => cases fault <;> rfl

theorem wipe_removal (fs : FileSystem) (path : Path) :
    Removal fs path (wipe fs path).1 (fs.removeAll path).2 := by
  rw [wipe_fst]
  exact removal fs path

theorem wipe_eq_ok : (wipe fs path).2 = .ok () ↔
    (fs.removeAll path).2 = .ok () ∨ (fs.removeAll path).2 = .error .notFound := by
  unfold wipe
  cases fs.removeAll path with
  | mk wiped outcome =>
    cases outcome with
    | ok => simp
    | error fault => cases fault <;> simp

/-- Once it has been wiped, the path names no directory. -/
theorem isDirectory_of_wipe (wiped : (wipe fs path).2 = .ok ()) :
    (wipe fs path).1.isDirectory path = false :=
  (wipe_removal fs path).isDirectory_eq_false (wipe_eq_ok.1 wiped)

/-- Cleaning is wiping and, if that has succeeded, making the directory. -/
theorem clean_cases (fs : FileSystem) (path : Path) :
    (clean fs path).1 = (wipe fs path).1 ∧ (∃ e, (clean fs path).2 = .error e) ∨
      (wipe fs path).2 = .ok () ∧ clean fs path = ensure (wipe fs path).1 path := by
  unfold clean
  obtain ⟨wiped, e | _⟩ := wipe fs path
  · exact .inl ⟨rfl, e, rfl⟩
  · exact .inr ⟨rfl, rfl⟩

/-- Cleaning makes directories at places that do not lie in what is wiped. -/
theorem clean_furnishedOn (apart : ∀ s, fs.findEntry path = .ok s → ∀ q, K q → ¬ s <+: q) :
    FurnishedOn K fs (clean fs path).1 := by
  have wiped : AgreeOn K fs (wipe fs path).1 :=
    (wipe_removal fs path).elsewhere.mono fun q within s found => apart s found q within
  rcases clean_cases fs path with ⟨same, -⟩ | ⟨-, makes⟩
  · rw [same]
    exact wiped.furnishedOn
  · rw [makes]
    exact wiped.furnishedOn.trans ((ensure_furnished _ path).mono fun _ _ => trivial)

/-- What is removed with a path: a link that it ends in, alone, or a directory and all that lies
below it. If a separator stands behind the link, the path names the directory to which it leads. -/
def Removed (fs : FileSystem) (path : Path) (q : Place) : Prop :=
  ∃ s, fs.findEntry path = .ok s ∧
    ((∃ target, fs.get s = some (.link target)) ∧ q = s ∨
      fs.get s = some .directory ∧ s <+: q)

/-- What has not been removed is there after a removal. -/
theorem kept_of_removal {outcome : Except Fault Unit} (h : Removal fs path fs' outcome)
    (tree : fs.IsTree) {q : Place} {e : Entry} (lies : fs.get q = some e)
    (spared : ¬ Removed fs path q) : fs'.get q = some e := by
  cases h with
  | missing => exact lies
  | file => exact lies
  | @link s target found link =>
    have outside : ¬ s <+: q := by
      intro under
      by_cases same : q = s
      · exact spared ⟨s, found, .inl ⟨⟨target, link⟩, same⟩⟩
      · have above := tree.below under same (by rw [lies]; nofun)
        rw [link] at above
        cases above
    rw [get_prune fs q (ne_root_of_link link), if_neg outside, lies]
  | @directory s found directory root again =>
    have outside : ¬ s <+: q := fun under => spared ⟨s, found, .inr ⟨directory, under⟩⟩
    rw [get_prune _ q root, if_neg outside, get_clear, if_neg (fun h => outside h.1), lies]
  | @emptied s fault found directory refused =>
    have outside : ¬ s <+: q := fun under => spared ⟨s, found, .inr ⟨directory, under⟩⟩
    rw [get_clear, if_neg (fun h => outside h.1), lies]

/-- What cleaning does to the files, whether or not it succeeds. -/
structure Cleaned (path : Path) (fs fs' : FileSystem) : Prop where
  /-- All is kept but what is removed with the path. -/
  kept : ∀ q e, fs.get q = some e → ¬ Removed fs path q → fs'.get q = some e
  /-- What has been added is a directory that the path names or a path above it. -/
  added : ∀ q, fs'.get q ≠ none → fs'.get q ≠ fs.get q →
    fs'.get q = some .directory ∧ ∃ above ∈ path.ancestors, fs'.find above = .ok q
  here : fs'.here = fs.here
  tree : fs'.IsTree

theorem cleaned_of_wipe (tree : fs.IsTree) (path : Path) : Cleaned path fs (wipe fs path).1 := by
  have removed := wipe_removal fs path
  refine ⟨fun q e lies spared => kept_of_removal removed tree lies spared, ?_,
    removed.elsewhere.here, removed.isTree tree⟩
  intro q there other
  obtain ⟨e, lies⟩ := Option.ne_none_iff_exists'.1 there
  exact absurd (lies.trans (removed.get_of_get lies).symm) other

theorem cleaned_of_clean (tree : fs.IsTree) (path : Path) :
    Cleaned path fs (clean fs path).1 := by
  have wiped := cleaned_of_wipe tree path
  rcases clean_cases fs path with ⟨same, -⟩ | ⟨-, makes⟩
  · rw [same]
    exact wiped
  rw [makes, ensure_fst]
  have made := madeAlong (wipe fs path).1 path
  refine ⟨?_, ?_, made.here.trans wiped.here, wiped.tree.makeAlong path.ancestors⟩
  · exact fun q e lies spared => made.kept q e (wiped.kept q e lies spared)
  · intro q there other
    refine made.added q ?_ there
    -- what is left after wiping was there before, and is there afterwards
    refine Option.eq_none_iff_forall_ne_some.2 fun e left => other ?_
    rw [made.kept q e left, (wipe_removal fs path).get_of_get left]

/-- In every case cleaning takes away nothing but what lies in the directory that the path names, or
the link that the path ends in, and adds nothing but the directory and those above it that are
missing. After a success the directory is there; and it is empty if, once the old one has been
removed, the path does not go up from a directory that is missing. -/
theorem clean_empties (fs : FileSystem) (path : Path) (given : path ≠ []) (tree : fs.IsTree) :
    Cleaned path fs (clean fs path).1 ∧
    ((clean fs path).2 = .ok () → (status (clean fs path).1 path).present = true ∧
      ((wipe fs path).1.Ascends path → ∃ s, (clean fs path).1.find path = .ok s ∧
        (clean fs path).1.get s = some .directory ∧ (clean fs path).1.list s = [])) := by
  refine ⟨cleaned_of_clean tree path, fun succeeds => ?_⟩
  rcases clean_cases fs path with ⟨-, e, fails⟩ | ⟨wiped, makes⟩
  · rw [fails] at succeeds
    cases succeeds
  rw [makes] at succeeds ⊢
  refine ⟨(ensure_eq_ok_iff given).1 succeeds, fun ascends => ?_⟩
  have tree' := (cleaned_of_wipe tree path).tree
  obtain ⟨s, found, directory, -, empty⟩ := fresh_of_makeAlong tree' given ascends
    (isDirectory_of_wipe wiped) (ensure_eq_ok.1 succeeds)
  rw [ensure_fst]
  exact ⟨s, found, directory, empty⟩

/-- A build directory with a file and a link in it, beside the directory that the link leads to. -/
def linkedFiles : FileSystem :=
  ⟨[([Path.ofString "a"], .directory), ([Path.ofString "b"], .directory),
    ([Path.ofString "b", Path.ofString "f"], .file [1] false),
    ([Path.ofString "b", Path.ofString "l"], .link (Path.ofString "/o")),
    ([Path.ofString "o"], .directory),
    ([Path.ofString "o", Path.ofString "g"], .file [2] true)], []⟩

/-- Cleaned by a path that goes up from a directory, the build directory is empty, and what the link
has led to is kept. -/
theorem clean_empties_linked :
    linkedFiles.IsTree ∧
    (clean linkedFiles (Path.ofString "a/../b")).2 = .ok () ∧
    (wipe linkedFiles (Path.ofString "a/../b")).1.Ascends (Path.ofString "a/../b") ∧
    (∃ s, (clean linkedFiles (Path.ofString "a/../b")).1.find (Path.ofString "a/../b") = .ok s ∧
      (clean linkedFiles (Path.ofString "a/../b")).1.list s = []) ∧
    (clean linkedFiles (Path.ofString "a/../b")).1.get [Path.ofString "o", Path.ofString "g"] =
      some (.file [2] true) := by
  have tree : linkedFiles.IsTree := isTree_of_entries (by decide +kernel)
  have succeeds : (clean linkedFiles (Path.ofString "a/../b")).2 = .ok () :=
    ok_of_toOption (by decide +kernel)
  have ascends : (wipe linkedFiles (Path.ofString "a/../b")).1.Ascends (Path.ofString "a/../b") := by
    decide +kernel
  have entry : linkedFiles.findEntry (Path.ofString "a/../b") = .ok [Path.ofString "b"] :=
    ok_of_toOption (by decide +kernel)
  obtain ⟨cleaned, empties⟩ := clean_empties linkedFiles (Path.ofString "a/../b") (by decide) tree
  obtain ⟨s, found, -, empty⟩ := (empties succeeds).2 ascends
  refine ⟨tree, succeeds, ascends, ⟨s, found, empty⟩, cleaned.kept _ _ (by decide +kernel) ?_⟩
  rintro ⟨s, found', removed⟩
  obtain rfl : [Path.ofString "b"] = s := Except.ok.inj (entry.symm.trans found')
  rcases removed with ⟨-, same⟩ | ⟨-, under⟩
  · exact absurd same (by decide)
  · exact absurd under (by decide)

/-- A directory with a file in it. -/
def filledFiles : FileSystem :=
  ⟨[([Path.ofString "d"], .directory),
    ([Path.ofString "d", Path.ofString "f"], .file [1] false)], []⟩

/-- The path leads to the directory only when another one has been made, so that it is taken for
gone, and cleaning succeeds with the file still in it. -/
theorem clean_leaves_filled :
    filledFiles.IsTree ∧
    (clean filledFiles (Path.ofString "x/../d")).2 = .ok () ∧
    ∃ s, (clean filledFiles (Path.ofString "x/../d")).1.find (Path.ofString "x/../d") = .ok s ∧
      (clean filledFiles (Path.ofString "x/../d")).1.get s = some .directory ∧
      (clean filledFiles (Path.ofString "x/../d")).1.list s = [Path.ofString "f"] := by
  refine ⟨isTree_of_entries (by decide +kernel), ok_of_toOption (by decide +kernel),
    [Path.ofString "d"], ok_of_toOption (by decide +kernel), ?_, ?_⟩
  · decide +kernel
  · decide +kernel

end BuildDirectory

end BuildPanel
