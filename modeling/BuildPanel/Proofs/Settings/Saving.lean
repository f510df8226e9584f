import BuildPanel.Proofs.FileSystem.Make
import BuildPanel.Proofs.Settings.Snapshot

/-!
Where the snapshot is saved. If the path to it, and the paths to the directories above it, keep to
a region of the file system, saving changes nothing elsewhere and depends on nothing else. What
could be saved once can be saved ever after.
-/

namespace BuildPanel

namespace Settings

open FileSystem

variable {K : Place → Prop} {fs fs' : FileSystem} {path : Path}

/-- The paths that saving walks along keep to a region. -/
def LiesIn (fs : FileSystem) (K : Place → Prop) (path : Path) : Prop :=
  ∀ p ∈ path.ancestors, fs.Confined K p

instance (fs : FileSystem) (K : Place → Prop) [DecidablePred K] (path : Path) :
    Decidable (LiesIn fs K path) :=
  inferInstanceAs (Decidable (∀ p ∈ path.ancestors, fs.Confined K p))

/-- A snapshot can be saved. -/
def Saveable (fs : FileSystem) (path : Path) : Prop :=
  (save fs path .empty).2 = .ok ()

theorem LiesIn.of_growsOn (grown : GrowsOn K fs fs') (h : LiesIn fs K path) :
    LiesIn fs' K path :=
  fun p hp => (h p hp).of_growsOn grown

theorem mem_ancestors (p : Path) : p ∈ p.ancestors := by
  cases above : p.parent? with
  | none => simp [Path.ancestors_of_parent?_eq_none above]
  | some q => simp [Path.ancestors_of_parent?_eq_some above]

theorem LiesIn.parent {parent : Path} (h : LiesIn fs K path)
    (above : path.parent? = some parent) : ∀ p ∈ parent.ancestors, fs.Confined K p := by
  intro p hp
  refine h p ?_
  rw [Path.ancestors_of_parent?_eq_some above]
  exact List.mem_cons_of_mem path hp

theorem makeParent_grown (h : LiesIn fs K path) : Grown K fs (makeParent fs path).1 := by
  unfold makeParent
  cases above : path.parent? with
  | none => exact Grown.refl K fs
  | some parent =>
    have grown := makeAlong_grown (h.parent above)
    dsimp only [makeDirectories]
    generalize fs.makeAlong parent.ancestors = r at *
    obtain ⟨made, outcome⟩ := r
    cases outcome <;> exact grown

theorem makeParent_congr (agree : AgreeOn K fs fs') (h : LiesIn fs K path) :
    (makeParent fs' path).2 = (makeParent fs path).2 ∧
      AgreeOn K (makeParent fs path).1 (makeParent fs' path).1 := by
  unfold makeParent
  cases above : path.parent? with
  | none => exact ⟨rfl, agree⟩
  | some parent =>
    obtain ⟨same, agree'⟩ := makeAlong_congr agree (h.parent above)
    dsimp only [makeDirectories]
    generalize fs.makeAlong parent.ancestors = r at *
    generalize fs'.makeAlong parent.ancestors = r' at *
    obtain ⟨made, outcome⟩ := r
    obtain ⟨made', outcome'⟩ := r'
    obtain rfl : outcome' = outcome := same
    cases outcome' <;> exact ⟨rfl, agree'⟩

/-- The directories above the snapshot, once they are there, need not be made again. -/
theorem makeParent_again {made : FileSystem} (h : makeParent fs path = (made, .ok ()))
    (grown : Grown K made fs') : makeParent fs' path = (fs', .ok ()) := by
  unfold makeParent at *
  cases above : path.parent? with
  | none => rfl
  | some parent =>
    rw [above] at h
    dsimp only [makeDirectories] at h ⊢
    obtain ⟨rest, ancestors⟩ : ∃ rest, parent.ancestors = parent :: rest := ⟨_, rfl⟩
    rw [ancestors] at h ⊢
    cases made' : fs.makeAlong (parent :: rest) with
    | mk files outcome =>
      rw [made'] at h
      cases outcome with
      | error fault => cases h
      | ok =>
        cases h
        have there := @isDirectory_of_makeAlong fs parent rest (by rw [made'])
        rw [made'] at there
        rcases there with empty | directory
        · rw [makeAlong_cons, if_pos empty]
        · rw [makeAlong_of_isDirectory (isDirectory_grows grown directory)]

/-- Saving changes nothing outside the region that the snapshot lies in. -/
theorem save_grown (h : LiesIn fs K path) (options : OptionSet) :
    Grown K fs (save fs path options).1 := by
  unfold save
  have grown := makeParent_grown h
  generalize makeParent fs path = r at *
  obtain ⟨made, outcome⟩ := r
  cases outcome with
  | error fault => exact grown
  | ok =>
    dsimp only
    cases written : made.write path (document options) with
    | error fault => exact grown
    | ok after =>
      exact grown.trans (write_grown (grown.confined (h path (mem_ancestors path))) written)

/-- What is saved, and whether it can be, depends on nothing but the region. -/
theorem save_congr (agree : AgreeOn K fs fs') (h : LiesIn fs K path) (options : OptionSet) :
    (save fs' path options).2 = (save fs path options).2 ∧
      AgreeOn K (save fs path options).1 (save fs' path options).1 := by
  unfold save
  have grown := makeParent_grown h
  obtain ⟨same, agree'⟩ := makeParent_congr agree h
  generalize makeParent fs path = r at *
  generalize makeParent fs' path = r' at *
  obtain ⟨made, outcome⟩ := r
  obtain ⟨made', outcome'⟩ := r'
  obtain rfl : outcome' = outcome := same
  cases outcome' with
  | error fault => exact ⟨rfl, agree'⟩
  | ok =>
    dsimp only
    rcases write_congr agree' (grown.confined (h path (mem_ancestors path))) (document options) with
      ⟨fault, first, second⟩ | ⟨written, written', first, second, agree''⟩
    · rw [first, second]
      exact ⟨rfl, agree'⟩
    · rw [first, second]
      exact ⟨rfl, agree''⟩

theorem save_of_saveable (h : Saveable fs path) (options : OptionSet) :
    (save fs path options).2 = .ok () :=
  (save_outcome fs path options .empty).trans h

theorem saveable_of_save {options : OptionSet} (h : (save fs path options).2 = .ok ()) :
    Saveable fs path :=
  (save_outcome fs path .empty options).trans h

theorem Saveable.congr (agree : AgreeOn K fs fs') (h : LiesIn fs K path)
    (saveable : Saveable fs path) : Saveable fs' path :=
  (save_congr agree h .empty).1.trans saveable

/-- What could be saved once can be saved again. -/
theorem Saveable.save {path : Path} (h : Saveable fs path) (options : OptionSet) :
    Saveable (save fs path options).1 path := by
  have saved := save_of_saveable h options
  unfold Settings.save at saved ⊢
  cases parent : makeParent fs path with
  | mk made outcome =>
    rw [parent] at saved
    cases outcome with
    | error fault => cases saved
    | ok =>
      dsimp only at saved ⊢
      cases written : made.write path (document options) with
      | error fault =>
        rw [written] at saved
        cases saved
      | ok after =>
        dsimp only
        have grown : Grown (fun _ => True) made after :=
          write_grown (keepsTo_everywhere _ _ _) written
        obtain ⟨again, rewritten⟩ := write_again (document .empty) written
        unfold Saveable Settings.save
        rw [makeParent_again parent grown]
        dsimp only
        rw [rewritten]

end Settings

end BuildPanel
