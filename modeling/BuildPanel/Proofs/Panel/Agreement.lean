import BuildPanel.Proofs.Panel.Exclusion
import BuildPanel.Proofs.Panel.LastWrite
import BuildPanel.Proofs.Panel.Milestones

/-!
Configuring side by side. A request to configure saves its options before it asks for the lock, and
the lock is granted in the order in which it was asked for. So the snapshot is the set of the
request that saved last, and the request that configures last is the one that asked last. These need
not be the same: between saving and asking another request can do both.
-/

namespace BuildPanel

namespace Panel

open Http FileSystem

/-- A phase of a request that applies options. -/
inductive Applies (options : OptionSet) : Phase → Prop where
  | arrived {r : Request} (asks : action? r = some (.apply options)) :
      Applies options (.arrived r)
  | saving : Applies options (.saving options)
  | asking : Applies options (.asking (.apply options))
  | waiting : Applies options (.waiting (.apply options))
  | launching : Applies options (.launching (.apply options))
  | running {j : Nat} : Applies options (.running (.apply options) j)
  | answered {response : Response} : Applies options (.answered response)
  | dropped : Applies options .dropped

namespace World

variable {p : Panel} {sets : List OptionSet} {orders : Milestone → List Nat} {w w' : World}
  {m : Move}

/-! ### What is applied -/

/-- Every request applies the set of its number. -/
def AllApply (sets : List OptionSet) (w : World) : Prop :=
  ∀ (i : Nat) phase, w.requests[i]? = some phase →
    ∃ options, sets[i]? = some options ∧ Applies options phase

theorem allApply_start (fs : FileSystem) {requests : List Request}
    (applies : requests.map action? = sets.map fun options => some (.apply options)) :
    AllApply sets (start fs requests) := by
  intro i phase at_i
  simp only [start, List.getElem?_map, Option.map_eq_some_iff] at at_i
  obtain ⟨r, given, rfl⟩ := at_i
  have asks := congrArg (·[i]?) applies
  simp only [List.getElem?_map, given, Option.map_some] at asks
  obtain ⟨options, same, eq⟩ := Option.map_eq_some_iff.1 asks.symm
  exact ⟨options, same, .arrived eq.symm⟩

theorem AllApply.moved {i : Nat} {old new : Phase} (h : AllApply sets w)
    (at_i : w.requests[i]? = some old) (goes : ∀ options, Applies options old → Applies options new)
    (requests : ∀ k, w'.requests[k]? = if k = i then some new else w.requests[k]?) :
    AllApply sets w' := by
  intro k phase at_k
  rw [requests] at at_k
  split at at_k
  · rename_i eq
    cases at_k
    obtain ⟨options, given, applies⟩ := h i old at_i
    exact ⟨options, eq ▸ given, goes options applies⟩
  · exact h k phase at_k

theorem AllApply.step (h : AllApply sets w) (step : Step p w m w') : AllApply sets w' := by
  cases step with
  | accepted phase =>
    refine h.moved phase ?_ (setPhase_requests phase _)
    rintro options ⟨asks⟩
    rw [accept_of_action asks]
    exact .saving
  | saved phase _ =>
    refine h.moved phase ?_ (setPhase_requests phase _)
    rintro options ⟨⟩
    exact .asking
  | granted phase _ =>
    refine h.moved phase ?_ (setPhase_requests phase _)
    rintro options ⟨⟩
    exact .waiting
  | queued phase _ =>
    refine h.moved phase ?_ (setPhase_requests phase _)
    rintro options ⟨⟩
    exact .waiting
  | entered phase _ _ => exact h.moved phase nofun (setPhase_requests phase _)
  | prepared phase _ _ _ =>
    refine h.moved phase ?_ (setPhase_requests phase _)
    rintro options ⟨⟩
    exact .launching
  | wiped phase _ => exact h.moved phase nofun (setPhase_requests phase _)
  | started phase _ =>
    refine h.moved phase ?_ (setPhase_requests phase _)
    rintro options ⟨⟩
    exact .running
  | exited _ => exact h
  | acted _ => exact h
  | lostHolding phase _ _ => exact h.moved phase (fun _ _ => .dropped) (setPhase_requests phase _)
  | lostInLine phase _ _ => exact h.moved phase (fun _ _ => .dropped) (setPhase_requests phase _)
  | lostRunning phase _ => exact h.moved phase (fun _ _ => .dropped) (setPhase_requests phase _)
  | _ phase => exact h.moved phase (fun _ _ => .answered) (setPhase_requests phase _)

/-! ### What has been saved -/

/-- What is loaded is the set of the request that saved last, if one has saved. -/
def Current (p : Panel) (sets : List OptionSet) (saved : List Nat) (fs : FileSystem) : Prop :=
  ∀ i ∈ saved.getLast?, ∃ options,
    sets[i]? = some options ∧ Settings.load fs p.configuration.settings = .ok (some options)

/-- A snapshot that can be loaded stays what it is. -/
def Stays (p : Panel) (fs fs' : FileSystem) : Prop :=
  ∀ options, Settings.load fs p.configuration.settings = .ok (some options) →
    Settings.load fs' p.configuration.settings = .ok (some options)

theorem Stays.refl (p : Panel) (fs : FileSystem) : Stays p fs fs :=
  fun _ loads => loads

theorem stays_of_ensure (p : Panel) (fs : FileSystem) :
    Stays p fs (BuildDirectory.ensure fs p.configuration.build).1 :=
  fun _ loads => Settings.load_of_furnishedOn (BuildDirectory.ensure_furnished _ _)
    (fun path _ => confined_everywhere fs path) loads

theorem Current.stays {saved : List Nat} {fs fs' : FileSystem} (h : Current p sets saved fs)
    (stays : Stays p fs fs') : Current p sets saved fs' := by
  intro i last
  obtain ⟨options, given, loads⟩ := h i last
  exact ⟨options, given, stays options loads⟩

/-- The set that has just been saved is current. -/
theorem current_of_save {saved : List Nat} {now : Option Nat} {i : Nat} {options : OptionSet}
    {fs fs' : FileSystem} (passes : now = some i) (given : sets[i]? = some options)
    (saves : Settings.save fs p.configuration.settings options = (fs', .ok ())) :
    Current p sets (saved ++ now.toList) fs' := by
  subst passes
  intro k last
  obtain rfl : i = k := by simpa using last
  exact ⟨options, given, Settings.load_of_save saves⟩

/-- A child that moves leaves a snapshot that can be loaded what it is. -/
def KeepsSnapshot (p : Panel) (w : World) (m : Move) : Prop :=
  ∀ j w', m = .act j → w.act j = some w' → Stays p w.files w'.files

/-- A request has come to its end and has not started a child. -/
def Forsaken (orders : Milestone → List Nat) (w : World) : Prop :=
  ∃ i, Milestone.launched.progress < w.progress i ∧ i ∉ orders .launched

theorem Forsaken.step (h : Forsaken orders w) (step : Step p w m w') :
    Forsaken (fun s => orders s ++ (w.passing w' s m).toList) w' := by
  obtain ⟨i, far, without⟩ := h
  refine ⟨i, Nat.lt_of_lt_of_le far (progress_le step i), ?_⟩
  intro member
  rcases List.mem_append.1 member with before | now
  · exact without before
  · have := (progress_of_passing (Option.mem_toList.1 now)).1
    omega

/-- Whoever comes past saving has saved or has failed. -/
theorem saves_or_fails (all : AllApply sets w) (step : Step p w m w') {i : Nat}
    (before : w.progress i < Milestone.saved.progress)
    (after : Milestone.saved.progress ≤ w'.progress i) :
    w.passing w' .saved m = some i ∨ Milestone.launched.progress < w'.progress i := by
  obtain rfl | rfl := mover_of_lt step (Nat.lt_of_lt_of_le before after)
  · cases step with
    | accepted phase =>
      obtain ⟨options, -, ⟨asks⟩⟩ := all i _ phase
      rw [accept_of_action asks] at after
      have near := Nat.le_trans after (Nat.le_of_eq (progress_eq (setPhase_self phase _)))
      simp [Action.first] at near
    | unsaved phase _ =>
      exact .inr (Nat.lt_of_lt_of_eq (by simp) (progress_eq (setPhase_self phase _)).symm)
    | saved phase _ => exact .inl (passing_of_moved phase (setPhase_requests phase _) _)
    | _ phase => simp [progress_eq phase] at before
  · cases step with
    | _ phase => simp [progress_eq phase] at before

/-- How requests that apply options stand in a run: those that have come past saving have saved or
have failed, and what is loaded is current unless a request has failed. -/
structure Applying (p : Panel) (sets : List OptionSet) (orders : Milestone → List Nat)
    (w : World) : Prop where
  all : AllApply sets w
  passed : Passed orders w
  saved : ∀ i, Milestone.saved.progress ≤ w.progress i →
    i ∈ orders .saved ∨ Milestone.launched.progress < w.progress i
  launched : ∀ i ∈ orders .launched, i ∈ orders .saved
  current : Forsaken orders w ∨ Current p sets (orders .saved) w.files

namespace Applying

theorem start (p : Panel) (fs : FileSystem) {requests : List Request}
    (applies : requests.map action? = sets.map fun options => some (.apply options)) :
    Applying p sets (fun _ => []) (World.start fs requests) where
  all := allApply_start fs applies
  passed := passed_nil _
  saved := by
    intro i far
    cases given : requests[i]? <;> simp [progress, World.start, given] at far
  launched := nofun
  current := .inr nofun

theorem saved_step (h : Applying p sets orders w) (step : Step p w m w') (i : Nat)
    (far : Milestone.saved.progress ≤ w'.progress i) :
    i ∈ orders .saved ++ (w.passing w' .saved m).toList ∨
      Milestone.launched.progress < w'.progress i := by
  by_cases before : w.progress i < Milestone.saved.progress
  · refine (saves_or_fails h.all step before far).imp_left fun now => ?_
    exact List.mem_append_right _ (Option.mem_toList.2 now)
  · rcases h.saved i (Nat.not_lt.1 before) with already | beyond
    · exact .inl (List.mem_append_left _ already)
    · exact .inr (Nat.lt_of_lt_of_le beyond (progress_le step i))

theorem launched_step (h : Applying p sets orders w) (i : Nat)
    (member : i ∈ orders .launched ++ (w.passing w' .launched m).toList) :
    i ∈ orders .saved ++ (w.passing w' .saved m).toList := by
  rcases List.mem_append.1 member with before | now
  · exact List.mem_append_left _ (h.launched i before)
  · -- Whoever starts a child was about to, and so had saved before.
    have near := (progress_of_passing (Option.mem_toList.1 now)).1
    simp only [Milestone.progress] at near
    rcases h.saved i (by simp only [Milestone.progress]; omega) with already | beyond
    · exact List.mem_append_left _ already
    · simp only [Milestone.progress] at beyond
      omega

/-- A request that cannot save is forsaken. -/
theorem forsaken_of_unsaved (h : Applying p sets orders w) {i : Nat} {options : OptionSet}
    (at_i : w.requests[i]? = some (.saving options))
    (beyond : Milestone.launched.progress < w'.progress i) :
    Forsaken (fun s => orders s ++ (w.passing w' s m).toList) w' := by
  refine ⟨i, beyond, fun member => ?_⟩
  have near := progress_eq at_i
  simp only [Phase.progress] at near
  rcases List.mem_append.1 member with before | now
  · have := h.passed.reached .launched i before
    simp only [Milestone.progress] at this
    omega
  · have := (progress_of_passing (Option.mem_toList.1 now)).1
    simp only [Milestone.progress] at this
    omega

theorem current_step (h : Applying p sets orders w) (keeps : KeepsSnapshot p w m)
    (step : Step p w m w') :
    Forsaken (fun s => orders s ++ (w.passing w' s m).toList) w' ∨
      Current p sets (orders .saved ++ (w.passing w' .saved m).toList) w'.files := by
  rcases h.current with forsaken | current
  · exact .inl (forsaken.step step)
  have aside : w.passing w' .saved m = none → Stays p w.files w'.files →
      Forsaken (fun s => orders s ++ (w.passing w' s m).toList) w' ∨
        Current p sets (orders .saved ++ (w.passing w' .saved m).toList) w'.files := by
    intro still stays
    rw [still, Option.toList_none, List.append_nil]
    exact .inr (current.stays stays)
  have made := stays_of_ensure p w.files
  cases step with
  | accepted phase =>
    obtain ⟨options, -, ⟨asks⟩⟩ := h.all _ _ phase
    refine aside (passing_of_moved phase (setPhase_requests phase _) _) ?_
    rw [accept_of_action asks]
    exact .refl p w.files
  | unsaved phase _ =>
    exact .inl (h.forsaken_of_unsaved phase
      (Nat.lt_of_lt_of_eq (by simp) (progress_eq (setPhase_self phase _)).symm))
  | saved phase outcome =>
    obtain ⟨_, given, ⟨⟩⟩ := h.all _ _ phase
    exact .inr (current_of_save (passing_of_moved phase (setPhase_requests phase _) _) given
      outcome)
  | refused phase _ outcome =>
    rw [outcome] at made
    exact aside (passing_of_moved phase (setPhase_requests phase _) _) made
  | entered phase _ _ => obtain ⟨_, -, ⟨⟩⟩ := h.all _ _ phase
  | prepared phase _ _ outcome =>
    rw [outcome] at made
    exact aside (passing_of_moved phase (setPhase_requests phase _) _) made
  | unwiped phase _ => obtain ⟨_, -, ⟨⟩⟩ := h.all _ _ phase
  | wiped phase _ => obtain ⟨_, -, ⟨⟩⟩ := h.all _ _ phase
  | remade phase => obtain ⟨_, -, ⟨⟩⟩ := h.all _ _ phase
  | exited child => exact aside rfl (.refl p w.files)
  | acted child => exact aside rfl (keeps _ _ rfl (by simp [act, child]))
  | lostHolding _ _ _ => exact aside rfl (.refl p w.files)
  | lostInLine _ _ _ => exact aside rfl (.refl p w.files)
  | lostRunning _ _ => exact aside rfl (.refl p w.files)
  | _ phase =>
    exact aside (passing_of_moved phase (setPhase_requests phase _) _) (.refl p w.files)

theorem step (h : Applying p sets orders w) (keeps : KeepsSnapshot p w m)
    (step : Step p w m w') :
    Applying p sets (fun s => orders s ++ (w.passing w' s m).toList) w' where
  all := h.all.step step
  passed := h.passed.step step
  saved := h.saved_step step
  launched := h.launched_step
  current := h.current_step keeps step

/-- Who has come somewhere is one of those that apply a set. -/
theorem bound (h : Applying p sets orders w) {i : Nat} (far : 0 < w.progress i) :
    i < sets.length := by
  unfold progress at far
  split at far
  · rename_i phase at_i
    obtain ⟨options, given, -⟩ := h.all i phase at_i
    exact (List.getElem?_eq_some_iff.1 given).1
  · exact absurd far (Nat.lt_irrefl 0)

theorem current_of_all (h : Applying p sets orders w)
    (all : ∀ i, i < sets.length → i ∈ orders .launched) :
    Current p sets (orders .saved) w.files := by
  rcases h.current with ⟨i, far, without⟩ | current
  · exact absurd (all i (h.bound (Nat.zero_lt_of_lt far))) without
  · exact current

/-- When all children have been started, all of the requests have come past every milestone. -/
theorem perm_range (h : Applying p sets orders w)
    (served : (orders .launched).Sublist (orders .asked))
    (all : ∀ i, i < sets.length → i ∈ orders .launched) (s : Milestone) :
    (orders s).Perm (List.range sets.length) := by
  refine (List.perm_ext_iff_of_nodup (h.passed.nodup s) List.nodup_range).2 fun i => ?_
  rw [List.mem_range]
  constructor
  · intro member
    have far := h.passed.reached s i member
    refine h.bound ?_
    cases s <;> simp only [Milestone.progress] at far <;> omega
  · intro near
    have started := all i near
    cases s with
    | saved => exact h.launched i started
    | asked => exact served.subset started
    | launched => exact started

end Applying

theorem applying_of_run {fs : FileSystem} {requests : List Request} {ms : List Move}
    (applies : requests.map action? = sets.map fun options => some (.apply options))
    (hrun : (start fs requests).run p ms = some w)
    (keeps : (start fs requests).Along p (KeepsSnapshot p) ms) :
    Applying p sets (fun s => (start fs requests).order p s ms) w := by
  have applying := order_induction (fun h keeps step => Applying.step h keeps step) hrun keeps
    (.start p fs applies)
  simpa only [List.nil_append] using applying

/-- How configuring side by side comes out. -/
structure Configured (p : Panel) (sets : List OptionSet) (order : Milestone → List Nat)
    (fs : FileSystem) : Prop where
  /-- Each request has saved, has asked for the lock and has configured, and has done so once. -/
  once : ∀ s, (order s).Perm (List.range sets.length)
  /-- Requests configure in the order in which they have asked for the lock. -/
  inTurn : order .launched = order .asked
  /-- What is loaded is the set of the request that saved last. -/
  loads : ∀ i ∈ (order .saved).getLast?,
    Settings.load fs p.configuration.settings = .ok sets[i]?
  /-- It is that of the request that configured last iff the two have the same set. -/
  agrees : ∀ i ∈ (order .saved).getLast?, ∀ j ∈ (order .launched).getLast?,
    (Settings.load fs p.configuration.settings = .ok sets[j]? ↔ sets[i]? = sets[j]?)

/-- Configuring side by side, in every interleaving: when all children have been started, and none
of them meddles with the snapshot, the snapshot is the set of the request that saved last, whichever
request configured last. -/
theorem configured_of_run (p : Panel) (fs : FileSystem) (requests : List Request)
    (sets : List OptionSet)
    (applies : requests.map action? = sets.map fun options => some (.apply options))
    (ms : List Move) (w : World) (hrun : (start fs requests).run p ms = some w)
    (keeps : (start fs requests).Along p (KeepsSnapshot p) ms)
    (all : ∀ i, i < requests.length → i ∈ (start fs requests).order p .launched ms) :
    Configured p sets (fun s => (start fs requests).order p s ms) w.files := by
  have length : requests.length = sets.length := by simpa using congrArg List.length applies
  rw [length] at all
  have applying := applying_of_run applies hrun keeps
  have served := launched_sublist_asked hrun
  have perm := applying.perm_range served all
  have loads : ∀ i ∈ ((start fs requests).order p .saved ms).getLast?,
      Settings.load w.files p.configuration.settings = .ok sets[i]? := by
    intro i last
    obtain ⟨options, given, loads⟩ := applying.current_of_all all i last
    rw [loads, given]
  refine ⟨perm, ?_, loads, ?_⟩
  · exact served.eq_of_length ((perm .launched).length_eq.trans (perm .asked).length_eq.symm)
  · intro i first j last
    rw [loads i first, Except.ok.injEq]

/-! ### A request that is overtaken -/

theorem action?_of_posted {r : Request} {options : OptionSet} (reached : endpoint? r = some .apply)
    (posts : posted? r = some options) : action? r = some (.apply options) := by
  unfold posted? at posts
  unfold action?
  rw [reached] at posts ⊢
  cases body : r.options with
  | error rejection =>
    rw [body] at posts
    cases posts
  | ok =>
    rw [body] at posts
    cases posts
    rfl

/-- A move that, if it is that of a child, changes no file. -/
def Idle (w : World) : Move → Prop
  | .act j => ∀ w' ∈ w.act j, w'.files.entries = w.files.entries ∧ w'.files.here = w.files.here
  | _ => True

instance (w : World) : DecidablePred w.Idle := fun m => by
  cases m <;> unfold Idle <;> infer_instance

theorem keepsSnapshot_of_idle {w : World} {m : Move} (h : w.Idle m) : KeepsSnapshot p w m := by
  rintro j w' rfl acts
  have same : ∀ {fs fs' : FileSystem}, fs.entries = fs'.entries → fs.here = fs'.here →
      fs = fs' := by
    rintro ⟨_, _⟩ ⟨_, _⟩ rfl rfl
    rfl
  obtain ⟨entries, here⟩ := h w' acts
  rw [same entries here]
  exact .refl p w.files

def oneOption : OptionSet :=
  .ofList [("A", ⟨"", true⟩)]

/-- A request to configure with one option. -/
def applyOne : Request :=
  ⟨"POST", "/apply", some (Text.bytes "application/json"),
    Text.bytes "\x7b\"A\":[\"\",true]\x7d", none⟩

/-- The first request saves first; then the second one saves, and asks for the lock before the first
one does. -/
def overtaking : List Move :=
  [.advance 0, .advance 1, .advance 0, .advance 1, .advance 1, .advance 0, .advance 1, .advance 1,
    .act 0, .advance 1, .advance 0, .advance 0, .act 1, .advance 0]

theorem applies_overtaking : [applyNothing, applyOne].map action? =
    [.empty, oneOption].map fun options => some (.apply options) := by
  have second : action? applyOne = some (.apply oneOption) :=
    action?_of_posted rfl (by decide +kernel)
  rw [List.map_cons, List.map_singleton, second]
  rfl

theorem keeps_overtaking : (start toolFiles [applyNothing, applyOne]).Along idlePanel
    (KeepsSnapshot idlePanel) overtaking := by
  have idle : (start toolFiles [applyNothing, applyOne]).Along idlePanel Idle overtaking := by
    decide +kernel
  refine along_iff.2 fun before m hcut w' hrun => ?_
  exact keepsSnapshot_of_idle (along_iff.1 idle before m hcut w' hrun)

theorem configured_overtaking : ∃ w,
    (start toolFiles [applyNothing, applyOne]).run idlePanel overtaking = some w ∧
    (∀ i, i < 2 → i ∈ (start toolFiles [applyNothing, applyOne]).order idlePanel .launched
      overtaking) ∧
    Configured idlePanel [.empty, oneOption]
      (fun s => (start toolFiles [applyNothing, applyOne]).order idlePanel s overtaking)
      w.files := by
  have all : ∀ i, i < 2 → i ∈ (start toolFiles [applyNothing, applyOne]).order idlePanel .launched
      overtaking := by
    decide +kernel
  cases hrun : (start toolFiles [applyNothing, applyOne]).run idlePanel overtaking with
  | none => exact absurd hrun (by decide +kernel)
  | some w =>
    exact ⟨w, rfl, all, configured_of_run idlePanel toolFiles _ _ applies_overtaking overtaking w
      hrun keeps_overtaking all⟩

/-- A panel whose build tool removes the snapshot. -/
def forgetfulPanel : Panel :=
  { idlePanel with
    machine := ⟨fun _ => some fun _ _ =>
      .act (fun fs => ([], fs.prune [Path.ofString "s"])) fun _ => .exit (.code 0), []⟩ }

/-- The only request saves and starts its child, and is answered when that has ended. -/
def forgetting : List Move :=
  List.replicate 5 (.advance 0) ++ [.act 0, .act 0, .advance 0]

/-- In a run all requests save, configure and are answered, and what is loaded is then not the set
of the request that configured last. -/
def Disagrees (p : Panel) (fs : FileSystem) (requests : List Request) (sets : List OptionSet)
    (ms : List Move) : Prop :=
  requests.map action? = sets.map (fun options => some (.apply options)) ∧
  ∃ w ∈ (start fs requests).run p ms,
    (∀ i, i < requests.length → i ∈ (start fs requests).order p .saved ms ∧
      i ∈ (start fs requests).order p .launched ms ∧ w.response? i ≠ none) ∧
    ∃ j ∈ ((start fs requests).order p .launched ms).getLast?,
      Settings.load w.files p.configuration.settings ≠ .ok sets[j]?

theorem disagrees_overtaking :
    Disagrees idlePanel toolFiles [applyNothing, applyOne] [.empty, oneOption] overtaking ∧
    Disagrees forgetfulPanel toolFiles [applyNothing] [.empty] forgetting := by
  constructor
  · have answered : ∃ w ∈ (start toolFiles [applyNothing, applyOne]).run idlePanel overtaking,
        ∀ i, i < 2 → i ∈ (start toolFiles [applyNothing, applyOne]).order idlePanel .saved
          overtaking ∧
          i ∈ (start toolFiles [applyNothing, applyOne]).order idlePanel .launched overtaking ∧
          w.response? i ≠ none := by
      decide +kernel
    obtain ⟨w, hrun, all⟩ := answered
    have current := (applying_of_run applies_overtaking hrun keeps_overtaking).current_of_all
      fun i near => (all i near).2.1
    obtain ⟨options, given, loads⟩ := current 1 (by decide +kernel)
    cases given
    refine ⟨applies_overtaking, w, hrun, all, 0, by decide +kernel, ?_⟩
    rw [loads, ne_eq, Except.ok.injEq]
    decide +kernel
  · have removed : ∃ w ∈ (start toolFiles [applyNothing]).run forgetfulPanel forgetting,
        (∀ i, i < 1 → i ∈ (start toolFiles [applyNothing]).order forgetfulPanel .saved
          forgetting ∧
          i ∈ (start toolFiles [applyNothing]).order forgetfulPanel .launched forgetting ∧
          w.response? i ≠ none) ∧
        (w.files.readText forgetfulPanel.configuration.settings).toOption = none := by
      decide +kernel
    obtain ⟨w, hrun, all, gone⟩ := removed
    refine ⟨rfl, w, hrun, all, 0, by decide +kernel, fun loads => ?_⟩
    obtain ⟨text, reads, -⟩ := Settings.load_eq_some.1 loads
    rw [reads] at gone
    cases gone

end World

end Panel

end BuildPanel
