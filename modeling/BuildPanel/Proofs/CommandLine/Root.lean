import BuildPanel.CommandLine.Configure
import BuildPanel.Invocation
import BuildPanel.Proofs.CommandLine.Binding
import BuildPanel.Proofs.FileSystem.Canonical

/-!
The root of the source tree. It is given by any path, and kept as the one path without links and dots
that leads to the same place from every directory: the build tool runs in the build directory, and
is told of the same source tree. A root is refused if it names nothing, or if its place can only be
reached by way of a place whose path is too long.
-/

namespace BuildPanel

namespace CommandLine

open Address FileSystem

variable {env : Environment} {fs : FileSystem} {g : Given} {c : Configuration} {root : Path}
  {fault : Fault}

/-- What is kept of the root that is given, for a configuration that has been made. -/
structure Rooted (env : Environment) (fs : FileSystem) (g : Given) (c : Configuration) (s : Place) :
    Prop where
  /-- From the current directory, the given root names a place. -/
  names : fs.Names g.project s
  absolute : c.project.isAbsolute = true
  dotless : ∀ name ∈ c.project.names, name ≠ Path.self ∧ name ≠ Path.up
  linkless : ∀ front, front <+: c.project.names → ∀ target, fs.get front ≠ some (.link target)
  /-- From every directory, what the build tool is told first leads to that place. -/
  told : ∀ b options, ∃ source defines,
    Invocation.configure c.project options = source :: defines ∧ (fs.enter b).find source = .ok s
  /-- Given in the stead of the root, from every directory, it makes the same configuration. -/
  again : ∀ b, { g with project := c.project }.configuration env (fs.enter b) = .ok c
  settings : g.settings = none → c.settings = (Configuration.forProject c.project c.build).settings

namespace Given

theorem configuration_eq_ok : g.configuration env fs = .ok c ↔
    ∃ address root, SocketAddress.ofString? g.address = some address ∧
      fs.canonical g.project = .ok root ∧
      c = ⟨address, root, g.settings.getD (root.join Configuration.settingsBelowProject),
        g.build.getD env.buildDirectory, g.program⟩ := by
  unfold configuration
  cases SocketAddress.ofString? g.address with
  | none => simp
  | some address =>
    cases fs.canonical g.project with
    | error fault => simp
    | ok root => simp [eq_comm]

theorem configuration_eq_project : g.configuration env fs = .error (.project root fault) ↔
    (∃ ip, SpellsHost g.host.toList ip) ∧ fs.canonical g.project = .error fault ∧
      root = g.project := by
  have valid : (∃ ip, SpellsHost g.host.toList ip) ↔ SocketAddress.ofString? g.address ≠ none := by
    rw [Ne, ofString?_address_eq_none, not_forall_not]
  rw [valid]
  unfold configuration
  cases SocketAddress.ofString? g.address with
  | none => simp
  | some address =>
    cases fs.canonical g.project with
    | error fault => simp [eq_comm, and_comm]
    | ok root => simp

end Given

theorem Rooted.of_configuration (sound : fs.IsSound) (here : IsNear fs.here)
    (made : g.configuration env fs = .ok c) : ∃ s, Rooted env fs g c s := by
  obtain ⟨address, root, read, taken, rfl⟩ := Given.configuration_eq_ok.1 made
  obtain ⟨s, names, near, rfl⟩ := canonical_eq_ok_iff.1 taken
  have there := names.there
  have named := sound.named s there
  have settled := sound.isSettled names
  have near := names.isNear here near
  have places := names_of_pathOf named
  refine ⟨s, names, isAbsolute_pathOf s, ?_, ?_, ?_, ?_, ?_⟩
  · intro name inside
    have valid := named name (places ▸ inside)
    exact ⟨valid.notSelf, valid.notUp⟩
  · intro front under
    rw [places] at under
    by_cases last : s = front
    · exact last ▸ settled
    · exact isSettled_of_directory (sound.tree.below under last there)
  · intro b options
    exact ⟨_, _, rfl, (sound.enter b).find_pathOf there settled near⟩
  · intro b
    exact Given.configuration_eq_ok.2
      ⟨address, pathOf s, read, (sound.enter b).canonical_pathOf there settled near, rfl⟩
  · intro usual
    rw [usual]
    rfl

/-- The root that a configuration keeps means the same place everywhere. A root is refused if and only
if the address is valid and the root names nothing, or nothing that can be reached by near places. -/
theorem rooted_configuration (sound : fs.IsSound) (here : IsNear fs.here) :
    (∀ c, g.configuration env fs = .ok c → ∃ s, Rooted env fs g c s) ∧
      ((∃ fault, g.configuration env fs = .error (.project g.project fault)) ↔
        (∃ ip, SpellsHost g.host.toList ip) ∧
          ¬ ∃ s, fs.Names g.project s ∧ fs.StaysNear g.project) := by
  refine ⟨fun c made => Rooted.of_configuration sound here made, ?_⟩
  rw [← canonical_eq_error_iff]
  constructor
  · rintro ⟨fault, refused⟩
    obtain ⟨valid, failed, -⟩ := Given.configuration_eq_project.1 refused
    exact ⟨valid, fault, failed⟩
  · rintro ⟨valid, fault, failed⟩
    exact ⟨fault, Given.configuration_eq_project.2 ⟨valid, failed, rfl⟩⟩

/-! ### Up and down, and through a link -/

/-- A link at the root to a directory in the directory that the panel is started in. -/
def straying : FileSystem where
  entries := [([[119]], .directory), ([[119], [112]], .directory),
    ([[108]], .link (Path.ofString "w/p"))]
  here := [[119]]

/-- What is given if there is only a root on the command line. -/
def onlyRoot (root : String) : Given :=
  Given.ofValues [(.project, root)]

theorem isSound_straying : straying.IsSound :=
  isSound_of_entries (by decide) (by decide)

/-- What is kept of a root that goes up, through the link, up again and down. -/
theorem rooted_straying : straying.IsSound ∧ IsNear straying.here ∧
    (∃ c, (onlyRoot "../l/../p/.").configuration [] straying = .ok c ∧
      c.project = Path.ofString "/w/p" ∧ ∃ s, Rooted [] straying (onlyRoot "../l/../p/.") c s) ∧
    ((∃ fault, (onlyRoot "../l/../p/.").configuration [] straying =
        .error (.project (onlyRoot "../l/../p/.").project fault)) ↔
      (∃ ip, SpellsHost (onlyRoot "../l/../p/.").host.toList ip) ∧
        ¬ ∃ s, straying.Names (onlyRoot "../l/../p/.").project s ∧
          straying.StaysNear (onlyRoot "../l/../p/.").project) := by
  have here : IsNear straying.here := by decide
  obtain ⟨kept, refused⟩ := @rooted_configuration [] straying (onlyRoot "../l/../p/.")
    isSound_straying here
  have made : ((onlyRoot "../l/../p/.").configuration [] straying).toOption =
      some ⟨⟨.v4 127 0 0 1, 5000⟩, Path.ofString "/w/p",
        Path.ofString "/w/p/cmake_config_tool/cmake_config.toml", Path.ofString "/tmp/aimrt_build",
        "cmake"⟩ := by decide +kernel
  have made := ok_of_toOption made
  exact ⟨isSound_straying, here, ⟨_, made, rfl, kept _ made⟩, refused⟩

/-! ### A place that is too deep -/

/-- Directories in one another, all of one name. -/
def tower (name : Name) : (depth : Nat) → List (Place × Entry)
  | 0 => []
  | depth + 1 => (List.replicate (depth + 1) name, .directory) :: tower name depth

def longName : Name :=
  List.replicate 255 97

/-- Seventeen directories with names as long as they may be, and a link to the fifteenth. -/
def deep : FileSystem where
  entries := ([[108]], .link (pathOf (List.replicate 15 longName))) :: tower longName 17
  here := []

def deepRoot : Path :=
  [108] ++ pathOf [longName, longName]

/-- A root that is found by the path that is given is refused all the same if the path of its place is
too long. -/
theorem refused_deep : deep.IsSound ∧ IsNear deep.here ∧
    deep.find deepRoot = .ok (List.replicate 17 longName) ∧
    { onlyRoot "" with project := deepRoot }.configuration [] deep =
      .error (.project deepRoot .nameTooLong) := by
  have sound : deep.IsSound := isSound_of_entries (by decide +kernel) (by decide +kernel)
  have found : (deep.find deepRoot).toOption = some (List.replicate 17 longName) := by
    decide +kernel
  exact ⟨sound, by decide, ok_of_toOption found, by decide +kernel⟩

end CommandLine

end BuildPanel
