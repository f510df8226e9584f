import BuildPanel.Settings
import BuildPanel.Proofs.FileSystem.Write
import BuildPanel.Proofs.Options.Toml
import BuildPanel.Proofs.Text.Utf8

/-!
The snapshot that was saved last is the one that is loaded. Whether saving succeeds is up to the
files alone: every set has a document.
-/

namespace BuildPanel

namespace Settings

theorem readText_of_write {fs fs' : FileSystem} {path : Path} {text : List Char}
    (h : fs.write path (Text.encode text) = .ok fs') :
    fs'.readText path = .ok (String.ofList text) := by
  simp [FileSystem.readText, FileSystem.read_of_write h, Text.decode?_encode, bind, Except.bind,
    pure, Except.pure]

theorem write_outcome (fs : FileSystem) (path : Path) (contents contents' : List UInt8) :
    (∃ fault, fs.write path contents = .error fault ∧ fs.write path contents' = .error fault) ∨
      ∃ fs₁ fs₂, fs.write path contents = .ok fs₁ ∧ fs.write path contents' = .ok fs₂ := by
  unfold FileSystem.write
  cases fs.openToWrite path with
  | error fault => exact .inl ⟨fault, rfl, rfl⟩
  | ok found => exact .inr ⟨_, _, rfl, rfl⟩

/-- Whether saving succeeds, and the fault if it does not, is the same for every set. -/
theorem save_outcome (fs : FileSystem) (path : Path) (options options' : OptionSet) :
    (save fs path options).2 = (save fs path options').2 := by
  unfold save
  split
  · rfl
  · next made _ =>
    rcases write_outcome made path (document options) (document options') with
      ⟨fault, first, second⟩ | ⟨fs₁, fs₂, first, second⟩
    · rw [first, second]
    · rw [first, second]

/-- The file that has been saved is the document of the set. -/
theorem readText_of_saved {fs fs' : FileSystem} {path : Path} {options : OptionSet}
    (saved : save fs path options = (fs', .ok ())) :
    fs'.readText path = .ok (String.ofList options.toToml) := by
  unfold save at saved
  split at saved
  · cases saved
  · next made _ =>
    cases written : made.write path (document options) with
    | error fault =>
      rw [written] at saved
      cases saved
    | ok after =>
      rw [written] at saved
      cases saved
      exact readText_of_write written

theorem load_of_save {fs fs' : FileSystem} {path : Path} {options : OptionSet}
    (saved : save fs path options = (fs', .ok ())) : load fs' path = .ok (some options) := by
  rw [load, readText_of_saved saved]
  dsimp only
  rw [String.toList_ofList, OptionSet.ofToml_toToml]

/-- Saving a set fails for no reason of its own, and after it has succeeded exactly this set is
loaded: its names in their order, with their descriptions and values. The set without options is a
snapshot like any other. -/
theorem save_then_load (fs : FileSystem) (path : Path) (options : OptionSet) :
    (∀ options', (save fs path options').2 = (save fs path options).2) ∧
      ∀ fs', save fs path options = (fs', .ok ()) → load fs' path = .ok (some options) :=
  ⟨fun options' => save_outcome fs path options' options, fun _ saved => load_of_save saved⟩

/-- Options whose names and descriptions need quotes, escapes and several lines. -/
def awkward : OptionSet :=
  .ofList [("a.b \"c\"", ⟨"one\n\t'''two''' \\", true⟩), ("", ⟨"", false⟩)]

theorem save_then_load_awkward :
    ∃ fs', save ⟨[], []⟩ (Path.ofString "/s") awkward = (fs', .ok ()) ∧
      load fs' (Path.ofString "/s") = .ok (some awkward) :=
  ⟨_, rfl, (save_then_load ⟨[], []⟩ (Path.ofString "/s") awkward).2 _ rfl⟩

end Settings

end BuildPanel
