import Mathlib.Tactic.SplitIfs
import BuildPanel.Proofs.BuildDirectory.Ensuring
import BuildPanel.Proofs.BuildDirectory.Site
import BuildPanel.Proofs.FileSystem.Remove

/-!
How the build directory is made and removed. All that is made and removed for it lies inside its
site, and depends on nothing else.
-/

namespace BuildPanel

open FileSystem

namespace BuildDirectory

namespace Site

variable {base fs fs' : FileSystem} {path : Path} (site : Site base path)

/-! ### Making the directory -/

/-- A directory that is there is left alone. -/
theorem ensure_of_present (grown : GrowsOn site.Outside base fs) (present : site.Present fs) :
    ensure fs path = (fs, .ok ()) :=
  ensure_of_isDirectory (site.isDirectory grown present)

/-- A directory that is gone is made as the entry that the path names. -/
theorem ensure_of_gone (grown : GrowsOn site.Outside base fs) (gone : site.Gone fs) :
    ensure fs path = (fs.put site.entry .directory, .ok ()) := by
  obtain ⟨name, named⟩ := Option.isSome_iff_exists.1 gone.1
  have free : fs.vacancy path = .ok site.entry := by
    unfold vacancy
    rw [site.lastStep_of_named named grown]
    dsimp only
    rw [← site.entry_of_named named]
    exact if_pos gone.2
  have given : path ≠ [] := by
    rintro rfl
    have accepted := site.accepted
    cases accepted
  obtain ⟨rest, ancestors⟩ : ∃ rest, path.ancestors = path :: rest := ⟨_, rfl⟩
  unfold ensure makeDirectories
  rw [ancestors, makeAlong_cons, if_neg given, lacksAbove, makeLast, free]
  rfl

theorem Gone.ne_root {site : Site base path} (gone : site.Gone fs) : site.entry ≠ [] := by
  obtain ⟨name, named⟩ := Option.isSome_iff_exists.1 gone.1
  exact site.entry_ne_root named

theorem put_entry_present {site : Site base path} (gone : site.Gone fs) :
    site.Present (fs.put site.entry .directory) := by
  have made := get_put fs .directory site.entry gone.ne_root
  rw [if_pos rfl] at made
  exact .inl made

theorem put_entry_outside {site : Site base path} (gone : site.Gone fs) :
    AgreeOn site.Outside fs (fs.put site.entry .directory) := by
  refine ⟨?_, rfl⟩
  intro q outside
  rw [get_put fs .directory q gone.ne_root, if_neg]
  rintro rfl
  exact outside site.inside_entry

/-! ### Removing the directory -/

/-- What becomes of the directory that is wiped. By a path that ends in no name it is emptied
only; a link goes alone; and one that stands before a separator stays, and only what is in the
directory goes. -/
def wiped (fs : FileSystem) : FileSystem × Except DirectoryError Unit :=
  if site.name = none then (fs.clear site.place, .error (.remove path (refusal path)))
  else if fs.get site.entry = some .directory then
    ((fs.clear site.entry).prune site.entry, .ok ())
  else if path.isMarkedDirectory then
    (fs.clear site.place, .error (.remove path .notDirectory))
  else (fs.prune site.entry, .ok ())

theorem wiped_of_unnamed (unnamed : site.name = none) (fs : FileSystem) :
    site.wiped fs = (fs.clear site.place, .error (.remove path (refusal path))) :=
  if_pos unnamed

theorem wiped_of_named {name : Name} (named : site.name = some name) (fs : FileSystem) :
    site.wiped fs =
      if fs.get site.entry = some .directory then
        ((fs.clear site.entry).prune site.entry, .ok ())
      else if path.isMarkedDirectory then
        (fs.clear site.place, .error (.remove path .notDirectory))
      else (fs.prune site.entry, .ok ()) :=
  if_neg (by rw [named]; nofun)

theorem clear_outside {s : Place} (inside : ∀ q, s <+: q → site.Inside q) (fs : FileSystem) :
    AgreeOn site.Outside fs (fs.clear s) :=
  (clear_elsewhere fs s).mono fun q outside below => outside (inside q below)

theorem prune_outside {s : Place} (root : s ≠ []) (inside : ∀ q, s <+: q → site.Inside q)
    (fs : FileSystem) : AgreeOn site.Outside fs (fs.prune s) :=
  (prune_elsewhere fs root).mono fun q outside below => outside (inside q below)

theorem clear_place_directory (there : fs.get site.place = some .directory) :
    (fs.clear site.place).get site.place = some .directory := by
  rw [get_clear, if_neg (by simp), there]

section Wiping

variable (grown : GrowsOn site.Outside base fs)

include grown

theorem wipe_of_unnamed (unnamed : site.name = none) (present : site.Present fs) :
    wipe fs path = (fs.clear site.place, .error (.remove path (refusal path))) := by
  have there := site.place_of_unnamed unnamed present
  have same : fs.get site.entry = base.get site.entry := by
    rw [site.entry_of_unnamed unnamed, there, site.directory]
  have found : fs.findEntry path = .ok site.place := by
    refine findEntry_of_walk site.accepted ?_ (by simp [there])
    rw [site.walk_entry_of_unnamed unnamed grown present]
    exact site.walk_of_link grown same there
  have emptied := grown.trans (site.clear_outside (fun _ => .inr) fs).growsOn
  have still : site.Present (fs.clear site.place) := by
    refine .inl ?_
    rw [site.entry_of_unnamed unnamed]
    exact site.clear_place_directory there
  have kept := removeDirectory_of_none (site.lastStep_of_unnamed unnamed emptied still)
  unfold wipe removeAll
  rw [found]
  dsimp only
  rw [there]
  dsimp only
  rw [kept]
  have given := refusal_ne_notFound path
  generalize refusal path = fault at given ⊢
  cases fault with
  | notFound => exact absurd rfl given
  | _ => rfl

variable {name : Name} (named : site.name = some name)

include named

theorem wipe_of_directory (there : fs.get site.entry = some .directory) :
    wipe fs path = ((fs.clear site.entry).prune site.entry, .ok ()) := by
  have found : fs.findEntry path = .ok site.entry :=
    findEntry_of_walk site.accepted (site.walk_of_directory named grown there .entry nofun)
      (by simp [there])
  have emptied := grown.trans (site.clear_outside (fun _ => .inl) fs).growsOn
  have still : (fs.clear site.entry).get site.entry = some .directory := by
    rw [get_clear, if_neg (by simp), there]
  have empty := list_clear fs site.entry
  have removed : (fs.clear site.entry).removeDirectory path =
      .ok ((fs.clear site.entry).prune site.entry) := by
    rw [site.entry_of_named named] at *
    exact removeDirectory_of_empty (site.lastStep_of_named named emptied) still empty
  unfold wipe removeAll
  rw [found]
  dsimp only
  rw [there]
  dsimp only
  rw [removed]

theorem wipe_of_link {target : Path} (link : fs.get site.entry = some (.link target))
    (plain : path.isMarkedDirectory = false) : wipe fs path = (fs.prune site.entry, .ok ()) := by
  obtain ⟨m, onward⟩ := site.walk_steps named grown
  have walks :
      fs.walk .entry linkLimit (fs.origin path) path.steps = .ok (.present site.entry) := by
    have strides := site.stride_entry named grown .entry nofun []
    rw [link] at strides
    rw [onward .entry nofun, plain, if_neg nofun, walk_cons, strides, site.entry_of_named named]
    rfl
  have found : fs.findEntry path = .ok site.entry :=
    findEntry_of_walk site.accepted walks (by simp [link])
  unfold wipe removeAll
  rw [found]
  dsimp only
  rw [link]

theorem wipe_of_marked_link {target : Path} (link : fs.get site.entry = some (.link target))
    (same : fs.get site.entry = base.get site.entry) (there : fs.get site.place = some .directory)
    (marked : path.isMarkedDirectory = true) :
    wipe fs path = (fs.clear site.place, .error (.remove path .notDirectory)) := by
  have walks := site.walk_of_link grown same there
  rw [Path.steps, if_pos marked, ← walk_entry_marked] at walks
  have found : fs.findEntry path = .ok site.place := by
    refine findEntry_of_walk site.accepted ?_ (by simp [there])
    rw [Path.steps, if_pos marked]
    exact walks
  have emptied := grown.trans (site.clear_outside (fun _ => .inr) fs).growsOn
  have still : (fs.clear site.place).get (site.above ++ [name]) = some (.link target) := by
    rw [← site.entry_of_named named]
    exact (site.get_entry_clear named fs).trans link
  have kept := removeDirectory_of_link (site.lastStep_of_named named emptied) still
  unfold wipe removeAll
  rw [found]
  dsimp only
  rw [there]
  dsimp only
  rw [kept]

end Wiping

theorem wipe_eq (grown : GrowsOn site.Outside base fs) (present : site.Present fs) :
    wipe fs path = site.wiped fs := by
  cases named : site.name with
  | none =>
    rw [site.wiped_of_unnamed named]
    exact site.wipe_of_unnamed grown named present
  | some name =>
    rw [site.wiped_of_named named]
    by_cases there : fs.get site.entry = some .directory
    · rw [if_pos there]
      exact site.wipe_of_directory grown named there
    · rw [if_neg there]
      obtain ⟨same, directory⟩ := present.resolve_left there
      obtain ⟨target, link⟩ : ∃ target, fs.get site.entry = some (.link target) := by
        rcases site.entry_cases named with directory | ⟨target, link⟩
        · rw [directory] at same
          exact absurd same there
        · exact ⟨target, same.trans link⟩
      cases marked : path.isMarkedDirectory with
      | true => exact site.wipe_of_marked_link grown named link same directory marked
      | false => exact site.wipe_of_link grown named link marked

/-- Wiping reaches nothing outside the site. -/
theorem wiped_outside (fs : FileSystem) : AgreeOn site.Outside fs (site.wiped fs).1 := by
  have cleared := site.clear_outside (fun _ => .inl) fs
  have emptied := site.clear_outside (fun _ => .inr) fs
  cases named : site.name with
  | none =>
    rw [site.wiped_of_unnamed named]
    exact emptied
  | some name =>
    have pruned := site.prune_outside (site.entry_ne_root named) (fun _ => .inl)
    rw [site.wiped_of_named named]
    split_ifs
    · exact cleared.trans (pruned _)
    · exact emptied
    · exact pruned fs

/-- What is wiped, and whether it can be, depends on nothing outside the site. -/
theorem wiped_congr (agree : AgreeOn site.Inside fs fs') :
    (site.wiped fs').2 = (site.wiped fs).2 ∧
      AgreeOn site.Inside (site.wiped fs).1 (site.wiped fs').1 := by
  have same := agree.get _ site.inside_entry
  cases named : site.name with
  | none =>
    rw [site.wiped_of_unnamed named, site.wiped_of_unnamed named]
    exact ⟨rfl, agree.clear _⟩
  | some name =>
    have root := site.entry_ne_root named
    rw [site.wiped_of_named named, site.wiped_of_named named, same]
    split_ifs
    · exact ⟨rfl, (agree.clear _).prune root⟩
    · exact ⟨rfl, agree.clear _⟩
    · exact ⟨rfl, agree.prune root⟩

theorem gone_of_wiped (h : (site.wiped fs).2 = .ok ()) : site.Gone (site.wiped fs).1 := by
  cases named : site.name with
  | none =>
    rw [site.wiped_of_unnamed named] at h
    cases h
  | some name =>
    have root := site.entry_ne_root named
    rw [site.wiped_of_named named] at h ⊢
    refine ⟨by rw [named]; rfl, ?_⟩
    split_ifs at *
    · rw [get_prune _ _ root, if_pos (List.prefix_refl _)]
    · rw [get_prune _ _ root, if_pos (List.prefix_refl _)]

theorem present_of_unwiped {e : DirectoryError} (present : site.Present fs)
    (h : (site.wiped fs).2 = .error e) : site.Present (site.wiped fs).1 := by
  cases named : site.name with
  | none =>
    rw [site.wiped_of_unnamed named]
    refine .inl ?_
    rw [site.entry_of_unnamed named]
    exact site.clear_place_directory (site.place_of_unnamed named present)
  | some name =>
    rw [site.wiped_of_named named] at h ⊢
    split_ifs at h ⊢ with there marked
    obtain ⟨same, directory⟩ := present.resolve_left there
    exact .inr ⟨(site.get_entry_clear named fs).trans same, site.clear_place_directory directory⟩

end Site

end BuildDirectory

end BuildPanel
