import Mathlib.Tactic.SplitIfs
import BuildPanel.BuildDirectory
import BuildPanel.Proofs.FileSystem.Lookup

/-!
Where the build directory lies. Its path leads, without going through the directory itself, to the
directory above and from there by one name to the directory, or to a link to it; or it ends in no
name at all, as `.` does, and then the directory cannot be removed. Either way the path leads to
the directory as long as that is there and nothing outside has been taken away.
-/

namespace BuildPanel

open FileSystem

namespace BuildDirectory

/-- The entry that a path names, if it ends in a name, and else the directory itself. -/
def entryOf (above : Place) (name : Option Name) (place : Place) : Place :=
  match name with
  | some name => above ++ [name]
  | none => place

/-- The site of a directory: where it lies, and the entry that its path names, which is the
directory itself or a link to it. -/
structure Site (base : FileSystem) (path : Path) where
  /-- The directory in which the last name is looked up. -/
  above : Place
  /-- The last name, if it can be given to an entry. -/
  name : Option Name
  /-- Where the directory lies. -/
  place : Place
  named : base.lastStep path = .ok (above, name)
  leads : base.walk .use linkLimit (base.origin path) path.steps = .ok (.present place)
  directory : base.get place = some .directory
  /-- The path does not lead through the directory on its way to the last name. -/
  approach : name.isSome → base.KeepsTo
    (fun q => ¬ (entryOf above name place <+: q ∨ place <+: q)) linkLimit (base.origin path)
    path.names.dropLast
  /-- Nor does it lead through what is in the directory at all. -/
  direct : base.Confined
    (fun q => ¬ (entryOf above name place <+: q ∨ place <+: q) ∨
      q = entryOf above name place ∨ q = place) path

namespace Site

variable {base fs fs' : FileSystem} {path : Path} (site : Site base path)

/-- The place of the entry that the path names. -/
def entry : Place :=
  entryOf site.above site.name site.place

/-- The places of the directory and of what is in it. -/
def Inside (q : Place) : Prop :=
  site.entry <+: q ∨ site.place <+: q

def Outside (q : Place) : Prop :=
  ¬ site.Inside q

instance : DecidablePred site.Inside :=
  fun q => inferInstanceAs (Decidable (site.entry <+: q ∨ site.place <+: q))

instance : DecidablePred site.Outside :=
  fun q => inferInstanceAs (Decidable (¬ site.Inside q))

/-- The path names the directory. -/
def Present (fs : FileSystem) : Prop :=
  fs.get site.entry = some .directory ∨
    fs.get site.entry = base.get site.entry ∧ fs.get site.place = some .directory

/-- The entry that the path names has been removed. -/
def Gone (fs : FileSystem) : Prop :=
  site.name.isSome ∧ fs.get site.entry = none

theorem inside_entry : site.Inside site.entry :=
  .inl (List.prefix_refl _)

theorem inside_place : site.Inside site.place :=
  .inr (List.prefix_refl _)

include site in
theorem accepted : accept path = .ok () := by
  have named := site.named
  cases h : site.name with
  | some name =>
    rw [h] at named
    exact (lastStep_ok named).1
  | none =>
    rw [h] at named
    exact (lastStep_none named).1

theorem present_base : site.Present base :=
  .inr ⟨rfl, site.directory⟩

theorem Present.congr {site : Site base path} (present : site.Present fs)
    (entry : fs'.get site.entry = fs.get site.entry)
    (place : fs'.get site.place = fs.get site.place) : site.Present fs' := by
  unfold Present
  rw [entry, place]
  exact present

theorem Present.of_inside {site : Site base path} (present : site.Present fs)
    (agree : AgreeOn site.Inside fs fs') : site.Present fs' :=
  present.congr (agree.get _ site.inside_entry) (agree.get _ site.inside_place)

theorem Gone.of_inside {site : Site base path} (gone : site.Gone fs)
    (agree : AgreeOn site.Inside fs fs') : site.Gone fs' :=
  ⟨gone.1, (agree.get _ site.inside_entry).trans gone.2⟩

/-! ### A path without a last name -/

section Unnamed

variable (unnamed : site.name = none)

include unnamed

theorem entry_of_unnamed : site.entry = site.place := by
  unfold entry entryOf
  rw [unnamed]

theorem place_of_unnamed (present : site.Present fs) : fs.get site.place = some .directory := by
  rcases present with there | ⟨-, there⟩
  · rw [site.entry_of_unnamed unnamed] at there
    exact there
  · exact there

end Unnamed

/-- As long as the entry is what it was and the directory is there, the path leads to it. -/
theorem grows_direct (grown : GrowsOn site.Outside base fs)
    (same : fs.get site.entry = base.get site.entry) (there : fs.get site.place = some .directory) :
    GrowsOn (fun q => site.Outside q ∨ q = site.entry ∨ q = site.place) base fs := by
  refine ⟨?_, grown.here⟩
  rintro q (outside | rfl | rfl)
  · exact grown.grows q outside
  · rw [same]
    exact .refl _
  · rw [there, site.directory]
    exact .refl _

theorem walk_of_link (grown : GrowsOn site.Outside base fs)
    (same : fs.get site.entry = base.get site.entry) (there : fs.get site.place = some .directory) :
    fs.walk .use linkLimit (fs.origin path) path.steps = .ok (.present site.place) := by
  rw [origin_congr grown.here]
  exact walk_grows (site.grows_direct grown same there) site.direct site.leads

theorem lastStep_of_unnamed (unnamed : site.name = none) (grown : GrowsOn site.Outside base fs)
    (present : site.Present fs) : fs.lastStep path = .ok (site.above, none) := by
  have there := site.place_of_unnamed unnamed present
  have same : fs.get site.entry = base.get site.entry := by
    rw [site.entry_of_unnamed unnamed, there, site.directory]
  have further := site.grows_direct grown same there
  have named := site.named
  rw [unnamed] at named
  obtain ⟨accepted, ⟨last, above⟩ | ⟨name, last, dots, walks, directory⟩⟩ := lastStep_none named
  · rw [FileSystem.lastStep_eq, accepted, last, above, origin_congr grown.here]
  · have keeps := site.direct
    unfold Confined at keeps
    rw [Path.steps_eq last] at keeps
    have still := further.grows _ (keeps.init.target walks)
    rw [Target.place, directory] at still
    have walks' := walk_grows further keeps.init walks
    rw [← origin_congr grown.here] at walks'
    rw [FileSystem.lastStep_eq, accepted, last]
    simp [walks', still.directory, dots]

/-- A path that ends in no name leads to the same place whatever it is walked for. -/
theorem walk_entry_of_unnamed (unnamed : site.name = none) (grown : GrowsOn site.Outside base fs)
    (present : site.Present fs) : fs.walk .entry linkLimit (fs.origin path) path.steps =
      fs.walk .use linkLimit (fs.origin path) path.steps := by
  obtain ⟨-, ⟨last, -⟩ | ⟨name, last, dots, walks, -⟩⟩ :=
    lastStep_none (site.lastStep_of_unnamed unnamed grown present)
  · have names : path.names = [] := List.getLast?_eq_none_iff.1 last
    unfold Path.steps
    rw [names]
    split_ifs
    · exact walk_entry_marked _ _ []
    · rw [walk_nil, walk_nil]
  · obtain ⟨m, onward⟩ := walk_append walks
    obtain ⟨next, goes⟩ : ∃ next, dotted? site.above name = some next := by
      have named := Path.ne_nil_of_mem_names (List.mem_of_getLast? last)
      unfold dotted?
      rcases dots with rfl | rfl
      · exact ⟨site.above, if_pos (.inr rfl)⟩
      · exact ⟨site.above.dropLast, by simp [Path.up, Path.self]⟩
    have strides : ∀ kind rest, fs.stride kind site.above name rest =
        if fs.get site.above ≠ some .directory then .fails .notDirectory else .goes next := by
      intro kind rest
      rw [stride, goes]
    rw [Path.steps_eq last, onward .entry _ (by decide) (by simp),
      onward .use _ (by decide) (by simp), walk_cons, walk_cons, strides, strides]
    by_cases marked : path.isMarkedDirectory
    · rw [if_pos marked]
      split_ifs
      · rfl
      · exact walk_entry_marked m next []
    · rw [if_neg marked]
      split_ifs
      · rfl
      · dsimp only
        rw [walk_nil, walk_nil]

/-! ### A path with a last name -/

section Named

variable {name : Name} (named : site.name = some name)

include named

theorem entry_of_named : site.entry = site.above ++ [name] := by
  unfold entry entryOf
  rw [named]

theorem entry_ne_root : site.entry ≠ [] := by
  rw [site.entry_of_named named]
  simp

theorem lastStep_base : base.lastStep path = .ok (site.above, some name) := by
  rw [site.named, named]

theorem keeps_approach :
    base.KeepsTo site.Outside linkLimit (base.origin path) path.names.dropLast :=
  site.approach (by rw [named]; rfl)

theorem outside_above : site.Outside site.above := by
  obtain ⟨-, -, walks, -⟩ := lastStep_ok (site.lastStep_base named)
  exact (site.keeps_approach named).target walks

theorem not_place_prefix_above : ¬ site.place <+: site.above :=
  fun below => site.outside_above named (.inr below)

/-- Clearing the directory behind a link does not reach the link. -/
theorem get_entry_clear (fs : FileSystem) :
    (fs.clear site.place).get site.entry = fs.get site.entry := by
  rw [get_clear, if_neg]
  rintro ⟨below, other⟩
  rw [site.entry_of_named named] at below other
  rcases List.prefix_concat_iff.1 below with same | above
  · exact other same.symm
  · exact site.not_place_prefix_above named above

section Finding

variable (grown : GrowsOn site.Outside base fs)

include grown

theorem lastStep_of_named : fs.lastStep path = .ok (site.above, some name) :=
  lastStep_grows grown (site.keeps_approach named) (site.lastStep_base named)

/-- How a walk for any use goes on from the directory above. -/
theorem walk_steps : ∃ m, ∀ kind, kind ≠ .make →
    fs.walk kind linkLimit (fs.origin path) path.steps =
      fs.walk kind m site.above (name :: if path.isMarkedDirectory then [[]] else []) := by
  obtain ⟨-, last, walks, -⟩ := lastStep_ok (site.lastStep_of_named named grown)
  obtain ⟨m, onward⟩ := walk_append walks
  refine ⟨m, ?_⟩
  intro kind notMake
  rw [Path.steps_eq last]
  exact onward kind _ notMake (by simp)

theorem stride_entry (kind : Purpose) (notMake : kind ≠ .make) (rest : List Name) :
    fs.stride kind site.above name rest =
      arrive kind site.above name rest (fs.get site.entry) := by
  obtain ⟨-, -, -, directory, plain, short⟩ := lastStep_ok (site.lastStep_of_named named grown)
  simp [stride, directory, plain, refusal?, notMake, short, site.entry_of_named named]

/-- A directory that the path names without a link is found whatever it is looked up for. -/
theorem walk_of_directory (there : fs.get site.entry = some .directory) (kind : Purpose)
    (notMake : kind ≠ .make) :
    fs.walk kind linkLimit (fs.origin path) path.steps = .ok (.present site.entry) := by
  rw [site.entry_of_named named] at there ⊢
  exact walk_last (site.lastStep_of_named named grown) there notMake

end Finding

/-- The path names a directory or a link. -/
theorem entry_cases : base.get site.entry = some .directory ∨
    ∃ target, base.get site.entry = some (.link target) := by
  have grown := GrowsOn.refl site.Outside base
  obtain ⟨m, onward⟩ := site.walk_steps named grown
  have strides := site.stride_entry named grown .use nofun
    (if path.isMarkedDirectory then [[]] else [])
  have leads := site.leads
  rw [onward .use nofun, walk_cons, strides] at leads
  cases lies : base.get site.entry with
  | none =>
    rw [lies] at leads
    by_cases marked : path.isMarkedDirectory <;> simp [arrive, marked] at leads
  | some e =>
    rw [lies] at leads
    cases e with
    | directory => exact .inl rfl
    | link target => exact .inr ⟨target, rfl⟩
    | file contents runnable =>
      have directory := site.directory
      dsimp only [arrive] at leads
      rw [← site.entry_of_named named] at leads
      by_cases marked : path.isMarkedDirectory
      · simp [marked, walk_cons, stride, lies] at leads
      · simp only [marked, Bool.false_eq_true, if_false, walk_nil] at leads
        rw [← Target.present.inj (Except.ok.inj leads), lies] at directory
        cases directory

end Named

theorem isDirectory (grown : GrowsOn site.Outside base fs) (present : site.Present fs) :
    fs.isDirectory path = true := by
  refine isDirectory_iff.2 ⟨site.accepted, ?_⟩
  cases named : site.name with
  | none =>
    have there := site.place_of_unnamed named present
    refine ⟨site.place, site.walk_of_link grown ?_ there, there⟩
    rw [site.entry_of_unnamed named, there, site.directory]
  | some name =>
    rcases present with there | ⟨same, there⟩
    · exact ⟨site.entry, site.walk_of_directory named grown there .use nofun, there⟩
    · exact ⟨site.place, site.walk_of_link grown same there, there⟩

end Site

end BuildDirectory

end BuildPanel
