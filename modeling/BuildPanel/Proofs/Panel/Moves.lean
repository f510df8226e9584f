import BuildPanel.Panel.Concurrent

/-!
Runs of the panel. A run is a list of moves, made one after another; every interleaving of the
requests, their clients and their children is one. `World.Step` says once what a move can do, one
constructor for each way to make it, and every invariant of the panel is proved by cases on it.
-/

namespace BuildPanel

namespace Panel

open Http

namespace World

/-- The world after some moves, if all of them can be made. -/
def run (p : Panel) (w : World) : List Move → Option World
  | [] => some w
  | m :: ms => (w.step p m).bind fun w' => w'.run p ms

/-- Whether something holds of every move of a run and the world in which it is made. -/
def Along (p : Panel) (P : World → Move → Prop) : World → List Move → Prop
  | _, [] => True
  | w, m :: ms => P w m ∧ ∀ w', w.step p m = some w' → w'.Along p P ms

/-- What a move can do. -/
inductive Step (p : Panel) (w : World) : Move → World → Prop where
  | accepted {i : Nat} {r : Request} (phase : w.requests[i]? = some (.arrived r)) :
      Step p w (.advance i)
        ({ w with files := (accept p w.files r).1 }.setPhase i (accept p w.files r).2)
  | unsaved {i : Nat} {options : OptionSet} {files : FileSystem} {fault : Settings.AccessFault}
      (phase : w.requests[i]? = some (.saving options))
      (outcome : Settings.save w.files p.configuration.settings options = (files, .error fault)) :
      Step p w (.advance i)
        ({ w with files }.setPhase i (.answered (applyFailure (saveFailure fault))))
  | saved {i : Nat} {options : OptionSet} {files : FileSystem}
      (phase : w.requests[i]? = some (.saving options))
      (outcome : Settings.save w.files p.configuration.settings options = (files, .ok ())) :
      Step p w (.advance i) ({ w with files }.setPhase i (.asking (.apply options)))
  | granted {i : Nat} {action : Action} (phase : w.requests[i]? = some (.asking action))
      (free : w.holder = none) :
      Step p w (.advance i) { w.setPhase i (.waiting action) with holder := some i }
  | queued {i : Nat} {action : Action} (phase : w.requests[i]? = some (.asking action))
      (taken : w.holder ≠ none) :
      Step p w (.advance i) { w.setPhase i (.waiting action) with line := w.line ++ [i] }
  | refused {i : Nat} {action : Action} {files : FileSystem}
      {e : BuildDirectory.DirectoryError} (phase : w.requests[i]? = some (.waiting action))
      (holds : w.holder = some i)
      (outcome : BuildDirectory.ensure w.files p.configuration.build = (files, .error e)) :
      Step p w (.advance i) ({ w with files }.answer i (directoryFailure action e))
  | entered {i : Nat} {files : FileSystem} (phase : w.requests[i]? = some (.waiting .clean))
      (holds : w.holder = some i)
      (outcome : BuildDirectory.ensure w.files p.configuration.build = (files, .ok ())) :
      Step p w (.advance i) ({ w with files }.setPhase i .wiping)
  | prepared {i : Nat} {action : Action} {files : FileSystem}
      (phase : w.requests[i]? = some (.waiting action)) (other : action ≠ .clean)
      (holds : w.holder = some i)
      (outcome : BuildDirectory.ensure w.files p.configuration.build = (files, .ok ())) :
      Step p w (.advance i) ({ w with files }.setPhase i (.launching action))
  | unwiped {i : Nat} {files : FileSystem} {e : BuildDirectory.DirectoryError}
      (phase : w.requests[i]? = some .wiping)
      (outcome : BuildDirectory.wipe w.files p.configuration.build = (files, .error e)) :
      Step p w (.advance i) ({ w with files }.answer i (cleanAnswer (.error e)))
  | wiped {i : Nat} {files : FileSystem} (phase : w.requests[i]? = some .wiping)
      (outcome : BuildDirectory.wipe w.files p.configuration.build = (files, .ok ())) :
      Step p w (.advance i) ({ w with files }.setPhase i .remaking)
  | remade {i : Nat} (phase : w.requests[i]? = some .remaking) :
      Step p w (.advance i)
        ({ w with files := (BuildDirectory.ensure w.files p.configuration.build).1 }.answer i
          (cleanAnswer (BuildDirectory.ensure w.files p.configuration.build).2))
  | unstarted {i : Nat} {action : Action} {fault : SpawnFault}
      (phase : w.requests[i]? = some (.launching action))
      (outcome : p.start w.files (p.arguments action) = .error fault) :
      Step p w (.advance i) (w.answer i (spawnFailure action fault))
  | started {i : Nat} {action : Action} {course : Course}
      (phase : w.requests[i]? = some (.launching action))
      (outcome : p.start w.files (p.arguments action) = .ok course) :
      Step p w (.advance i)
        { w.setPhase i (.running action w.children.length) with
          children := w.children ++ [⟨course, [], none⟩] }
  | finished {i j : Nat} {action : Action} {course : Course} {written : List UInt8}
      {status : ExitStatus} (phase : w.requests[i]? = some (.running action j))
      (ended : w.children[j]? = some ⟨course, written, some status⟩) :
      Step p w (.advance i) (w.answer i (ending action written status))
  | exited {j : Nat} {written : List UInt8} {status : ExitStatus}
      (child : w.children[j]? = some ⟨.exit status, written, none⟩) :
      Step p w (.act j)
        { w with children := w.children.set j ⟨.exit status, written, some status⟩ }
  | acted {j : Nat} {step : FileSystem → List UInt8 × FileSystem} {next : FileSystem → Course}
      {written : List UInt8} (child : w.children[j]? = some ⟨.act step next, written, none⟩) :
      Step p w (.act j)
        { w with
          files := (step w.files).2
          children := w.children.set j ⟨next w.files, written ++ (step w.files).1, none⟩ }
  | lostHolding {i : Nat} {action : Action} (phase : w.requests[i]? = some (.waiting action))
      (dependent : ∀ patience, action ≠ .build patience) (holds : w.holder = some i) :
      Step p w (.leave i) (w.setPhase i .dropped).release
  | lostInLine {i : Nat} {action : Action} (phase : w.requests[i]? = some (.waiting action))
      (dependent : ∀ patience, action ≠ .build patience) (waits : w.holder ≠ some i) :
      Step p w (.leave i) { w.setPhase i .dropped with line := w.line.erase i }
  | lostRunning {i j : Nat} {action : Action}
      (phase : w.requests[i]? = some (.running action j))
      (dependent : ∀ patience, action ≠ .build patience) :
      Step p w (.leave i) (w.setPhase i .dropped).release

theorem step_advance {p : Panel} {w w' : World} {i : Nat} (h : w.advance p i = some w') :
    Step p w (.advance i) w' := by
  unfold advance at h
  split at h
  case h_1 r phase =>
    cases h
    exact .accepted phase
  case h_2 options phase =>
    split at h
    case h_1 files fault outcome =>
      cases h
      exact .unsaved phase outcome
    case h_2 files outcome =>
      cases h
      exact .saved phase outcome
  case h_3 action phase =>
    dsimp only at h
    split at h
    case isTrue free =>
      cases h
      exact .granted phase free
    case isFalse taken =>
      cases h
      exact .queued phase taken
  case h_4 action phase =>
    split at h
    case isTrue holds =>
      dsimp only at h
      split at h
      case h_1 files e outcome =>
        cases h
        exact .refused phase holds outcome
      case h_2 files outcome =>
        cases h
        exact .entered phase holds outcome
      case h_3 files outcome other =>
        cases h
        exact .prepared phase other holds outcome
    case isFalse => cases h
  case h_5 phase =>
    dsimp only at h
    split at h
    case h_1 files e outcome =>
      cases h
      exact .unwiped phase outcome
    case h_2 files outcome =>
      cases h
      exact .wiped phase outcome
  case h_6 phase =>
    cases h
    exact .remade phase
  case h_7 action phase =>
    split at h
    case h_1 fault outcome =>
      cases h
      exact .unstarted phase outcome
    case h_2 course outcome =>
      cases h
      exact .started phase outcome
  case h_8 action j phase =>
    split at h
    case h_1 course written status ended =>
      cases h
      exact .finished phase ended
    case h_2 => cases h
  case h_9 => cases h

theorem step_act {p : Panel} {w w' : World} {j : Nat} (h : w.act j = some w') :
    Step p w (.act j) w' := by
  unfold act at h
  split at h
  case h_1 status written child =>
    cases h
    exact .exited child
  case h_2 step next written child =>
    cases h
    exact .acted child
  case h_3 => cases h

theorem step_leave {p : Panel} {w w' : World} {i : Nat} (h : w.leave i = some w') :
    Step p w (.leave i) w' := by
  unfold leave at h
  split at h
  case h_1 => cases h
  case h_2 => cases h
  case h_3 action dependent phase =>
    dsimp only at h
    split at h
    case isTrue holds =>
      cases h
      exact .lostHolding phase dependent holds
    case isFalse waits =>
      cases h
      exact .lostInLine phase dependent waits
  case h_4 action j dependent phase =>
    cases h
    exact .lostRunning phase dependent
  case h_5 => cases h

/-- Every move that can be made is made in one of the ways of `Step`. -/
theorem step_cases {p : Panel} {w w' : World} {m : Move} (h : w.step p m = some w') :
    Step p w m w' := by
  cases m with
  | advance i => exact step_advance h
  | act j => exact step_act h
  | leave i => exact step_leave h

/-- A run can be cut after any of its moves. -/
theorem run_append (p : Panel) (w : World) (ms ms' : List Move) :
    w.run p (ms ++ ms') = (w.run p ms).bind fun w' => w'.run p ms' := by
  induction ms generalizing w with
  | nil => rfl
  | cons m ms ih =>
    simp only [List.cons_append, run, Option.bind_assoc]
    exact Option.bind_congr fun w' _ => ih w'

/-- What holds along a run holds of every move that is reached. -/
theorem along_iff {p : Panel} {P : World → Move → Prop} {w : World} {ms : List Move} :
    w.Along p P ms ↔
      ∀ ms' m, ms' ++ [m] <+: ms → ∀ w', w.run p ms' = some w' → P w' m := by
  induction ms generalizing w with
  | nil => simp [Along]
  | cons m ms ih =>
    simp only [Along]
    constructor
    · rintro ⟨first, rest⟩ ms' m' hcut w' hrun
      cases ms' with
      | nil =>
        cases hrun
        obtain ⟨rfl, _⟩ := List.cons_prefix_cons.1 hcut
        exact first
      | cons n ms' =>
        obtain ⟨rfl, htail⟩ := List.cons_prefix_cons.1 hcut
        obtain ⟨next, hstep, hrest⟩ := Option.bind_eq_some_iff.1 hrun
        exact ih.1 (rest next hstep) ms' m' htail w' hrest
    · intro h
      refine ⟨h [] m (by simp) w rfl, ?_⟩
      intro next hstep
      refine ih.2 ?_
      intro ms' m' hcut w' hrun
      refine h (m :: ms') m' (List.cons_prefix_cons.2 ⟨rfl, hcut⟩) w' ?_
      simp [run, hstep, hrun]

/-- A run can be made to see what holds along it. -/
instance decideAlong (p : Panel) (P : World → Move → Prop) [∀ w m, Decidable (P w m)] :
    ∀ (w : World) (ms : List Move), Decidable (w.Along p P ms)
  | _, [] => isTrue trivial
  | w, m :: ms =>
    match hstep : w.step p m with
    | none => decidable_of_iff (P w m) (by simp [Along, hstep])
    | some w' =>
      have := decideAlong p P w' ms
      decidable_of_iff (P w m ∧ w'.Along p P ms) (by simp [Along, hstep])

theorem Along.cut {p : Panel} {P : World → Move → Prop} {w : World} {ms ms' : List Move}
    (h : w.Along p P ms) (hcut : ms' <+: ms) : w.Along p P ms' :=
  along_iff.2 fun before m hm w' hrun => along_iff.1 h before m (hm.trans hcut) w' hrun

/-- What holds at first and is kept by every move that may be made holds after a run of such
moves. -/
theorem run_induction {p : Panel} {P : World → Move → Prop} {Q : World → Prop}
    (keep : ∀ {w w' : World} {m : Move}, Q w → P w m → Step p w m w' → Q w') {w w' : World}
    {ms : List Move} (hrun : w.run p ms = some w') (halong : w.Along p P ms) (h : Q w) :
    Q w' := by
  induction ms generalizing w with
  | nil =>
    cases hrun
    exact h
  | cons m ms ih =>
    obtain ⟨next, hstep, hrest⟩ := Option.bind_eq_some_iff.1 hrun
    exact ih hrest (halong.2 next hstep) (keep h halong.1 (step_cases hstep))

end World

end Panel

end BuildPanel
