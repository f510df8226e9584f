import BuildPanel.Proofs.BuildDirectory.Cleaning
import BuildPanel.Proofs.Panel.Turns
import BuildPanel.Proofs.Settings.Keeping

/-!
The last write wins. While requests are served one after another, the snapshot is the set that was
saved last: by `/save`, or by `/apply` however it went on. What else happens to the files on the way
to the snapshot is that directories are made, so that there is none before the first one is saved,
unless one lies behind a directory that was missing.
-/

namespace BuildPanel

open FileSystem

namespace Panel

open Http

variable {p : Panel} {K : Place → Prop} {fs : FileSystem} {r : Request}

/-- The options that a request asks to save. -/
def posted? (r : Request) : Option OptionSet :=
  match endpoint? r with
  | some .save | some .apply => r.options.toOption
  | _ => none

/-- The options that a request saves: those that it asks to save, if they can be saved. -/
def saves? (p : Panel) (fs : FileSystem) (r : Request) : Option OptionSet :=
  (posted? r).filter fun options => (Settings.save fs p.configuration.settings options).2.isOk

/-- The options that are saved last while requests are served one after another. -/
def lastSaved? (p : Panel) (fs : FileSystem) : List Request → Option OptionSet
  | [] => none
  | r :: rest => (p.lastSaved? (p.respond fs r).1 rest).or (p.saves? fs r)

/-- The child that a request starts, and the files that it is started in. -/
inductive Starts (p : Panel) (fs : FileSystem) (r : Request) : FileSystem → Course → Prop where
  | apply {options : OptionSet} {saved made : FileSystem} {course : Course}
      (reached : endpoint? r = some .apply) (accepted : r.options = .ok options)
      (saves : Settings.save fs p.configuration.settings options = (saved, .ok ()))
      (makes : BuildDirectory.ensure saved p.configuration.build = (made, .ok ()))
      (starts : p.start made (p.configureArguments options) = .ok course) :
      Starts p fs r made course
  | build {made : FileSystem} {course : Course} (reached : endpoint? r = some .build)
      (makes : BuildDirectory.ensure fs p.configuration.build = (made, .ok ()))
      (starts : p.start made Invocation.build = .ok course) : Starts p fs r made course

/-- A request does not meddle with a region: no place of it lies in what is wiped, and the child
that is started does nothing there, or makes directories. -/
structure Spares (p : Panel) (K : Place → Prop) (fs : FileSystem) (r : Request) : Prop where
  apart : endpoint? r = some .clean →
    ∀ made, BuildDirectory.ensure fs p.configuration.build = (made, .ok ()) →
    ∀ s, made.findEntry p.configuration.build = .ok s → ∀ q, K q → ¬ s <+: q
  child : ∀ made course, p.Starts fs r made course → FurnishedOn K made (course.run made).2.1

/-- None of the requests that are served one after another meddles with a region. -/
def AllSpare (p : Panel) (K : Place → Prop) (fs : FileSystem) : List Request → Prop
  | [] => True
  | r :: rest => p.Spares K fs r ∧ p.AllSpare K (p.respond fs r).1 rest

/-! ### One request -/

section Saving

variable {options : OptionSet} {saved : FileSystem} {fault : Settings.AccessFault}

theorem saves?_of_none (h : posted? r = none) : p.saves? fs r = none := by
  unfold saves?
  rw [h]
  rfl

variable (posted : posted? r = some options)

include posted

theorem saves?_of_saved
    (saves : Settings.save fs p.configuration.settings options = (saved, .ok ())) :
    p.saves? fs r = some options := by
  unfold saves?
  rw [posted, Option.filter_some, saves]
  rfl

theorem saves?_of_unsaved
    (fails : Settings.save fs p.configuration.settings options = (saved, .error fault)) :
    p.saves? fs r = none := by
  unfold saves?
  rw [posted, Option.filter_some, fails]
  rfl

end Saving

/-- What a request may do to a region that it does not meddle with: it saves options and makes
directories. -/
def Leaves (p : Panel) (K : Place → Prop) (fs : FileSystem) (r : Request) (after : FileSystem) :
    Prop :=
  match p.saves? fs r with
  | some options => FurnishedOn K (Settings.save fs p.configuration.settings options).1 after
  | none => FurnishedOn K fs after

theorem leaves_of_none {after : FileSystem} (unposted : posted? r = none)
    (h : FurnishedOn K fs after) : p.Leaves K fs r after := by
  unfold Leaves
  rw [saves?_of_none unposted]
  exact h

theorem leaves_of_unsaved {options : OptionSet} {saved : FileSystem}
    {fault : Settings.AccessFault} (posted : posted? r = some options)
    (fails : Settings.save fs p.configuration.settings options = (saved, .error fault)) :
    p.Leaves K fs r saved := by
  unfold Leaves
  rw [saves?_of_unsaved posted fails]
  exact (Settings.onlyParentsMade_of_save fails).furnished.mono fun _ _ => trivial

theorem leaves_of_saved {options : OptionSet} {saved after : FileSystem}
    (posted : posted? r = some options)
    (saves : Settings.save fs p.configuration.settings options = (saved, .ok ()))
    (h : FurnishedOn K saved after) : p.Leaves K fs r after := by
  unfold Leaves
  rw [saves?_of_saved posted saves]
  dsimp only
  rw [saves]
  exact h

theorem ensure_furnishedOn (p : Panel) (K : Place → Prop) (fs : FileSystem) :
    FurnishedOn K fs (BuildDirectory.ensure fs p.configuration.build).1 :=
  (BuildDirectory.ensure_furnished fs p.configuration.build).mono fun _ _ => trivial

theorem page_furnishedOn (p : Panel) (K : Place → Prop) (fs : FileSystem) :
    FurnishedOn K fs (p.page fs).1 := by
  unfold page
  dsimp only
  cases OptionSet.scanFile fs p.configuration.lists with
  | error fault => exact .refl K fs
  | ok scanned => exact p.ensure_furnishedOn K fs

theorem clean_furnishedOn (reached : endpoint? r = some .clean) (spares : p.Spares K fs r) :
    FurnishedOn K fs (p.clean fs).1 := by
  have ensured := p.ensure_furnishedOn K fs
  have apart := spares.apart reached
  unfold clean
  cases makes : BuildDirectory.ensure fs p.configuration.build with
  | mk made outcome =>
    rw [makes] at ensured
    cases outcome with
    | error e => exact ensured
    | ok => exact ensured.trans (BuildDirectory.clean_furnishedOn (apart made makes))

/-- What a run does is what its child does, if it is started. -/
theorem run_furnishedOn {made : FileSystem} {arguments : List (List UInt8)}
    (child : ∀ course, p.start made arguments = .ok course →
      FurnishedOn K made (course.run made).2.1) :
    FurnishedOn K made (p.run made arguments).1 := by
  unfold run
  cases starts : p.start made arguments with
  | error fault => exact .refl K made
  | ok course => exact child course starts

theorem build_furnishedOn (reached : endpoint? r = some .build) (spares : p.Spares K fs r) :
    FurnishedOn K fs (p.build fs r.patience).1 := by
  have ensured := p.ensure_furnishedOn K fs
  unfold build
  cases makes : BuildDirectory.ensure fs p.configuration.build with
  | mk made outcome =>
    rw [makes] at ensured
    cases outcome with
    | error e => exact ensured
    | ok =>
      have ran : FurnishedOn K made (p.run made Invocation.build).1 := by
        refine run_furnishedOn ?_
        intro course starts
        exact spares.child made course (.build reached makes starts)
      dsimp only
      generalize p.run made Invocation.build = done at *
      obtain ⟨files, fault | ⟨output, status⟩⟩ := done <;> exact ensured.trans ran

theorem save_leaves (reached : endpoint? r = some .save) :
    p.Leaves K fs r (p.save fs r.options).1 := by
  have posts : posted? r = r.options.toOption := by simp only [posted?, reached]
  cases accepted : r.options with
  | error rejection =>
    rw [accepted] at posts
    exact leaves_of_none posts (.refl K fs)
  | ok options =>
    rw [accepted] at posts
    unfold save
    dsimp only
    cases saves : Settings.save fs p.configuration.settings options with
    | mk saved outcome =>
      cases outcome with
      | error fault => exact leaves_of_unsaved posts saves
      | ok => exact leaves_of_saved posts saves (.refl K saved)

theorem apply_leaves (reached : endpoint? r = some .apply) (spares : p.Spares K fs r) :
    p.Leaves K fs r (p.apply fs r.options).1 := by
  have posts : posted? r = r.options.toOption := by simp only [posted?, reached]
  cases accepted : r.options with
  | error rejection =>
    rw [accepted] at posts
    exact leaves_of_none posts (.refl K fs)
  | ok options =>
    rw [accepted] at posts
    unfold apply
    dsimp only
    cases saves : Settings.save fs p.configuration.settings options with
    | mk saved outcome =>
      cases outcome with
      | error fault => exact leaves_of_unsaved posts saves
      | ok =>
        have ensured := p.ensure_furnishedOn K saved
        refine leaves_of_saved posts saves ?_
        dsimp only
        cases makes : BuildDirectory.ensure saved p.configuration.build with
        | mk made outcome =>
          rw [makes] at ensured
          cases outcome with
          | error e => exact ensured
          | ok =>
            have ran : FurnishedOn K made (p.run made (p.configureArguments options)).1 := by
              refine run_furnishedOn ?_
              intro course starts
              exact spares.child made course (.apply reached accepted saves makes starts)
            dsimp only
            generalize p.run made (p.configureArguments options) = done at *
            obtain ⟨files, fault | ⟨output, status⟩⟩ := done <;> exact ensured.trans ran

theorem respond_leaves (spares : p.Spares K fs r) : p.Leaves K fs r (p.respond fs r).1 := by
  cases reached : endpoint? r with
  | none =>
    obtain ⟨response, responds⟩ := @respond_of_unreached p r reached
    rw [responds]
    exact leaves_of_none (by simp [posted?, reached]) (.refl K fs)
  | some endpoint =>
    rw [respond_of_endpoint? reached]
    cases endpoint with
    | page => exact leaves_of_none (by simp [posted?, reached]) (p.page_furnishedOn K fs)
    | save => exact save_leaves reached
    | clean =>
      exact leaves_of_none (by simp [posted?, reached]) (clean_furnishedOn reached spares)
    | apply => exact apply_leaves reached spares
    | build =>
      exact leaves_of_none (by simp [posted?, reached]) (build_furnishedOn reached spares)

/-! ### Requests one after another -/

/-- What is loaded is the set that was saved last. As long as none has been saved, there is no
snapshot and none comes to light. -/
structure Holds (p : Panel) (K : Place → Prop) (last : Option OptionSet) (fs : FileSystem) :
    Prop where
  way : Settings.LiesIn fs K p.configuration.settings
  loads : match last with
    | some options => Settings.load fs p.configuration.settings = .ok (some options)
    | none => Settings.Vacant fs K p.configuration.settings

theorem Holds.of_furnishedOn {last : Option OptionSet} {fs' : FileSystem} (h : p.Holds K last fs)
    (furnished : FurnishedOn K fs fs') : p.Holds K last fs' := by
  refine ⟨h.way.of_growsOn furnished.growsOn, ?_⟩
  have loads := h.loads
  cases last with
  | some options => exact Settings.load_of_furnishedOn furnished h.way loads
  | none => exact loads.of_furnishedOn furnished

/-- What one request does to the snapshot. -/
theorem Holds.respond {last : Option OptionSet} (h : p.Holds K last fs)
    (spares : p.Spares K fs r) :
    p.Holds K ((p.saves? fs r).or last) (p.respond fs r).1 := by
  have leaves := respond_leaves spares
  unfold Leaves at leaves
  cases saves : p.saves? fs r with
  | none =>
    rw [saves] at leaves
    exact h.of_furnishedOn leaves
  | some options =>
    rw [saves] at leaves
    dsimp only at leaves
    have grown := Settings.save_grown h.way options
    have way := h.way.of_growsOn (grown.grows.mono fun _ _ => trivial)
    refine Holds.of_furnishedOn ⟨way, ?_⟩ leaves
    obtain ⟨-, written⟩ := Option.filter_eq_some_iff.1 saves
    cases saved : Settings.save fs p.configuration.settings options with
    | mk files outcome =>
      rw [saved] at written
      cases outcome with
      | error fault => cases written
      | ok => exact Settings.load_of_save saved

/-- The snapshot after any number of requests. -/
theorem Holds.serve {last : Option OptionSet} {rs done : List Request} (h : p.Holds K last fs)
    (spared : p.AllSpare K fs rs) (served : done <+: rs) :
    p.Holds K ((p.lastSaved? fs done).or last) (p.serve fs done).1 := by
  induction done generalizing fs last rs with
  | nil => exact h
  | cons r done ih =>
    cases rs with
    | nil => exact absurd served (by simp)
    | cons first rest =>
      obtain ⟨rfl, later⟩ := List.cons_prefix_cons.1 served
      have onward := ih (h.respond spared.1) spared.2 later
      rw [lastSaved?, Option.or_assoc]
      exact onward

/-- The last write wins over whole runs: if at the start there is no snapshot, and none would come
to light if directories on the way to it were made, then after every request what is loaded is the
set that was saved last, and there is no snapshot as long as none was saved. -/
theorem load_of_lastSaved (p : Panel) (K : Place → Prop) (fs : FileSystem) (rs : List Request)
    (way : Settings.LiesIn fs K p.configuration.settings)
    (vacant : Settings.Vacant fs K p.configuration.settings) (spared : p.AllSpare K fs rs) :
    ∀ done, done <+: rs →
      match p.lastSaved? fs done with
      | some options =>
        Settings.load (p.serve fs done).1 p.configuration.settings = .ok (some options)
      | none => ∀ options,
        Settings.load (p.serve fs done).1 p.configuration.settings ≠ .ok (some options) := by
  intro done served
  have first : p.Holds K none fs := ⟨way, vacant⟩
  have loads := (first.serve spared served).loads
  rw [Option.or_none] at loads
  cases last : p.lastSaved? fs done with
  | some options =>
    rw [last] at loads
    exact loads
  | none =>
    rw [last] at loads
    exact loads.load_ne

/-! ### A machine without programs -/

/-- A panel for the source tree `/p` that builds in `/b`, on a machine without programs. -/
def barePanel : Panel where
  configuration := Configuration.forProject (Path.ofString "/p") (Path.ofString "/b")
  machine := ⟨fun _ => none, []⟩

/-- A source tree that declares no options. -/
def bareFiles : FileSystem :=
  ⟨[([Path.ofString "p"], .directory),
    ([Path.ofString "p", Path.ofString "CMakeLists.txt"], .file [] false)], []⟩

/-- No program is started there. -/
theorem start_bare (fs : FileSystem) (arguments : List (List UInt8)) (course : Course) :
    barePanel.start fs arguments ≠ .ok course := by
  intro started
  unfold start Machine.start at started
  dsimp only at started
  split_ifs at started with nul
  · cases started
  cases found : fs.find barePanel.configuration.build with
  | error fault =>
    rw [found] at started
    cases started
  | ok place =>
    rw [found] at started
    dsimp only [bind, Except.bind] at started
    split_ifs at started
    · cases started
    · have launch : barePanel.machine.launch (fs.enter place)
          (Path.ofString barePanel.configuration.program) arguments = .error .notFound := rfl
      rw [launch] at started
      cases started

/-- The way to the snapshot. -/
def bareWay : List Place :=
  [[], [Path.ofString "p"], [Path.ofString "p", Path.ofString "cmake_config_tool"],
    [Path.ofString "p", Path.ofString "cmake_config_tool", Path.ofString "cmake_config.toml"]]

theorem spares_bare {fs : FileSystem} {r : Request}
    (apart : ∀ s ∈ ((BuildDirectory.ensure fs barePanel.configuration.build).1.findEntry
        barePanel.configuration.build).toOption, ∀ q ∈ bareWay, ¬ s <+: q) :
    barePanel.Spares (· ∈ bareWay) fs r := by
  constructor
  case apart =>
    intro _ made makes s found q hq
    rw [makes] at apart
    exact apart s (congrArg Except.toOption found) q hq
  case child =>
    intro made course starts
    cases starts with
    | apply reached accepted saves makes starts => exact absurd starts (start_bare _ _ _)
    | build reached makes starts => exact absurd starts (start_bare _ _ _)

def askForPage : Request :=
  ⟨"GET", "/", none, [], none⟩

/-- The page, options to apply, for which no program is found, a cleaning, and a text that cannot be
saved. -/
def bareRequests : List Request :=
  [askForPage,
    ⟨"POST", "/apply", some (Text.bytes "application/json"),
      Text.bytes "\x7b\"A\":[\"\",true]\x7d", none⟩,
    ⟨"POST", "/clean", none, [], none⟩, ⟨"POST", "/save", none, [], none⟩]

theorem load_of_lastSaved_bare :
    Settings.LiesIn bareFiles (· ∈ bareWay) barePanel.configuration.settings ∧
    Settings.Vacant bareFiles (· ∈ bareWay) barePanel.configuration.settings ∧
    barePanel.AllSpare (· ∈ bareWay) bareFiles bareRequests ∧
    Settings.load (barePanel.serve bareFiles bareRequests).1 barePanel.configuration.settings =
      .ok (some (.ofList [("A", ⟨"", true⟩)])) := by
  have way : Settings.LiesIn bareFiles (· ∈ bareWay) barePanel.configuration.settings := by
    decide +kernel
  have vacant : Settings.Vacant bareFiles (· ∈ bareWay) barePanel.configuration.settings := by
    have lies : ∀ q ∈ bareWay, bareFiles.get q = none ∨ bareFiles.get q = some .directory := by
      decide +kernel
    refine Settings.vacant_of_no_file way ?_
    intro q hq contents runnable file
    rcases lies q hq with none_ | directory
    · rw [none_] at file
      cases file
    · rw [directory] at file
      cases file
  have spared : barePanel.AllSpare (· ∈ bareWay) bareFiles bareRequests := by
    refine ⟨spares_bare ?_, spares_bare ?_, spares_bare ?_, spares_bare ?_, trivial⟩ <;>
      decide +kernel
  have last : barePanel.lastSaved? bareFiles bareRequests =
      some (.ofList [("A", ⟨"", true⟩)]) := by
    decide +kernel
  have loads := load_of_lastSaved barePanel (· ∈ bareWay) bareFiles bareRequests way vacant spared
    bareRequests List.prefix_rfl
  rw [last] at loads
  exact ⟨way, vacant, spared, loads⟩

/-! ### A snapshot behind a missing directory -/

/-- A panel whose path to the snapshot leads into and out of the directory above its build
directory. -/
def detourPanel : Panel :=
  { barePanel with configuration :=
    { barePanel.configuration with
      settings := Path.ofString "/x/../d/s"
      build := Path.ofString "/x/b" } }

/-- Files with a snapshot, in which that directory is missing. -/
def detourFiles : FileSystem :=
  ⟨([Path.ofString "d"], .directory) ::
    ([Path.ofString "d", Path.ofString "s"],
      .file (Settings.document (.ofList [("A", ⟨"", true⟩)])) false) :: bareFiles.entries, []⟩

/-- The path of the snapshot does not lead through the build directory, nor the path of the build
directory through the snapshot; no snapshot is loaded, and none is saved. But the page makes the
directory that was missing, and with it an old snapshot comes to light. -/
theorem load_of_page_detour :
    Settings.load detourFiles detourPanel.configuration.settings = .ok none ∧
    Settings.LiesIn detourFiles (¬ [Path.ofString "x", Path.ofString "b"] <+: ·)
      detourPanel.configuration.settings ∧
    (∀ a ∈ detourPanel.configuration.build.ancestors,
      detourFiles.Confined (¬ [Path.ofString "d", Path.ofString "s"] <+: ·) a) ∧
    (∀ made course, ¬ detourPanel.Starts detourFiles askForPage made course) ∧
    detourPanel.lastSaved? detourFiles [askForPage] = none ∧
    Settings.load (detourPanel.serve detourFiles [askForPage]).1
      detourPanel.configuration.settings = .ok (some (.ofList [("A", ⟨"", true⟩)])) := by
  refine ⟨?_, ?_, ?_, ?_, ?_, ?_⟩
  · rfl
  · decide +kernel
  · decide +kernel
  · intro made course starts
    cases starts with
    | apply reached => exact absurd reached (by decide +kernel)
    | build reached => exact absurd reached (by decide +kernel)
  · decide +kernel
  · refine Settings.load_eq_some.2
      ⟨String.ofList (OptionSet.ofList [("A", ⟨"", true⟩)]).toToml, ?_, ?_⟩
    · exact ok_of_toOption (by decide +kernel)
    rw [String.toList_ofList, OptionSet.ofToml_toToml]

end Panel

end BuildPanel
