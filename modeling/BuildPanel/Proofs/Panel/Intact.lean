import BuildPanel.Proofs.Panel.Exclusion
import BuildPanel.Proofs.Panel.Turns
import BuildPanel.Proofs.Settings.Keeping

/-!
Saving and applying that fail leave everything intact. A request whose body is rejected does nothing
but to be told so; one whose options cannot be saved may have made directories above the snapshot.
Neither has anything to do with the lock or with a child, whatever other requests are at.
-/

namespace BuildPanel

namespace Panel

open Http

/-- What is told to a request whose body is rejected. -/
def rejectionAnswer : Endpoint → Rejection → Response
  | .apply, rejection => applyAnswer rejection.status ⟨.error, rejection.reason⟩
  | _, rejection => saveAnswer rejection.status ⟨.error, some rejection.reason⟩

/-- What is told to a request whose options cannot be saved. -/
def unsavedAnswer : Endpoint → Settings.AccessFault → Response
  | .apply, fault => applyFailure (saveFailure fault)
  | _, _ => saveAnswer 200 ⟨.error, none⟩

/-- The endpoints that save options. -/
def Endpoint.Saves (endpoint : Endpoint) : Prop :=
  endpoint = .save ∨ endpoint = .apply

namespace World

variable {p : Panel} {w w' : World} {i : Nat} {r : Request} {response : Response}

/-- A request has just arrived, or has been told something. -/
def Brief (w : World) (i : Nat) (r : Request) (response : Response) : Prop :=
  w.requests[i]? = some (.arrived r) ∨ w.requests[i]? = some (.answered response)

namespace Brief

/-- A request that is at something else is another one. -/
theorem other {k : Nat} {old : Phase} (h : Brief w i r response) (at_k : w.requests[k]? = some old)
    (early : ∀ r, old ≠ .arrived r) (late : ∀ response, old ≠ .answered response) (phase : Phase) :
    Brief (w.setPhase k phase) i r response := by
  have ne : i ≠ k := by
    rintro rfl
    rcases h with h | h
    · exact early r (Option.some.inj (at_k.symm.trans h))
    · exact late response (Option.some.inj (at_k.symm.trans h))
  unfold Brief
  rw [setPhase_requests at_k, if_neg ne]
  exact h

theorem accepted {k : Nat} {r' : Request} (h : Brief w i r response)
    (told : ∀ fs, accept p fs r = (fs, .answered response))
    (at_k : w.requests[k]? = some (.arrived r')) :
    Brief (w.setPhase k (accept p w.files r').2) i r response := by
  unfold Brief
  rw [setPhase_requests at_k]
  by_cases same : i = k
  · subst same
    rcases h with h | h
    · obtain rfl : r' = r := Phase.arrived.inj (Option.some.inj (at_k.symm.trans h))
      rw [if_pos rfl, told]
      exact .inr rfl
    · rw [h] at at_k
      cases at_k
  · rw [if_neg same]
    exact h

/-- A request that is told something at once stays so, whatever move is made. -/
theorem step {m : Move} (h : Brief w i r response)
    (told : ∀ fs, accept p fs r = (fs, .answered response)) (s : Step p w m w') :
    Brief w' i r response := by
  cases s with
  | accepted phase => exact h.accepted told phase
  | unsaved phase _ => exact h.other phase nofun nofun _
  | saved phase _ => exact h.other phase nofun nofun _
  | granted phase _ => exact h.other phase nofun nofun _
  | queued phase _ => exact h.other phase nofun nofun _
  | refused phase _ _ => exact h.other phase nofun nofun _
  | entered phase _ _ => exact h.other phase nofun nofun _
  | prepared phase _ _ _ => exact h.other phase nofun nofun _
  | unwiped phase _ => exact h.other phase nofun nofun _
  | wiped phase _ => exact h.other phase nofun nofun _
  | remade phase => exact h.other phase nofun nofun _
  | unstarted phase _ => exact h.other phase nofun nofun _
  | started phase _ => exact h.other phase nofun nofun _
  | finished phase _ => exact h.other phase nofun nofun _
  | exited _ => exact h
  | acted _ => exact h
  | lostHolding phase _ _ => exact h.other phase nofun nofun _
  | lostInLine phase _ _ => exact h.other phase nofun nofun _
  | lostRunning phase _ => exact h.other phase nofun nofun _

theorem stage (h : Brief w i r response) : w.stage i = .outside := by
  rcases h with h | h <;> exact stage_eq h

end Brief

/-- A request has nothing to do with the lock. -/
def Unlocked (w : World) (i : Nat) : Prop :=
  w.holder ≠ some i ∧ i ∉ w.line

theorem Orderly.unlocked (lock : Orderly w) (outside : w.stage i = .outside) : w.Unlocked i := by
  refine ⟨fun holds => lock.of_holder i holds outside, fun waits => ?_⟩
  have stage := lock.of_line i waits
  rw [outside] at stage
  cases stage

/-- The next move of a request saves options: those of its body, or those that it applies. -/
def SavesNext (w : World) (i : Nat) (options : OptionSet) : Endpoint → Prop
  | .save => ∃ r, w.requests[i]? = some (.arrived r) ∧ endpoint? r = some .save ∧
      r.options = .ok options
  | .apply => w.requests[i]? = some (.saving options)
  | _ => False

/-- What a request leaves intact whose body is rejected or whose options cannot be saved. -/
structure Intact (p : Panel) (w : World) (i : Nat) (r : Request) (endpoint : Endpoint) : Prop where
  /-- A request whose body is rejected never has to do with the lock. Its only move is that it is
  told so, and that changes nothing else: neither files nor children nor the lock. -/
  rejected : ∀ rejection, r.options = .error rejection →
    rejection.status ∈ [400, 413, 415, 422] ∧ w.Unlocked i ∧ w.step p (.leave i) = none ∧
      match w.response? i with
      | none => w.step p (.advance i) =
          some (w.setPhase i (.answered (rejectionAnswer endpoint rejection)))
      | some response => response = rejectionAnswer endpoint rejection ∧
          w.step p (.advance i) = none
  /-- A request whose options cannot be saved has nothing to do with the lock. It is told so, with
  status 200, and nothing else changes but the files; and of these nothing but that directories
  above the snapshot have been made. -/
  unsaved : ∀ options files fault, w.SavesNext i options endpoint →
    Settings.save w.files p.configuration.settings options = (files, .error fault) →
    w.Unlocked i ∧
      w.step p (.advance i) =
        some ({ w with files }.setPhase i (.answered (unsavedAnswer endpoint fault))) ∧
      Settings.OnlyParentsMade w.files files p.configuration.settings

theorem accept_of_rejected {endpoint : Endpoint} {rejection : Rejection} (saves : endpoint.Saves)
    (reached : endpoint? r = some endpoint) (rejected : r.options = .error rejection)
    (fs : FileSystem) :
    accept p fs r = (fs, .answered (rejectionAnswer endpoint rejection)) := by
  rw [accept_eq, respond_of_endpoint? reached, reached, rejected]
  rcases saves with rfl | rfl
  · simp only [handle, rejected]
    rfl
  · simp only [handle, rejected]
    rfl

theorem status_of_rejected {rejection : Rejection} (rejected : r.options = .error rejection) :
    rejection.status ∈ [400, 413, 415, 422] := by
  cases rejection with
  | wrongType => decide
  | tooLong => decide
  | unreadable body failure =>
    unfold Rejection.status
    dsimp only
    split <;> decide

theorem Brief.rejected {endpoint : Endpoint} {rejection : Rejection}
    (h : Brief w i r (rejectionAnswer endpoint rejection)) (saves : endpoint.Saves)
    (reached : endpoint? r = some endpoint) (rejected : r.options = .error rejection) :
    w.step p (.leave i) = none ∧
      match w.response? i with
      | none => w.step p (.advance i) =
          some (w.setPhase i (.answered (rejectionAnswer endpoint rejection)))
      | some response => response = rejectionAnswer endpoint rejection ∧
          w.step p (.advance i) = none := by
  rcases h with arrived | answered
  · have accepts := @accept_of_rejected p r endpoint rejection saves reached rejected w.files
    simp only [World.step, leave, response?, advance, arrived, accepts, true_and]
  · simp only [World.step, leave, response?, advance, answered, true_and]

theorem step_of_unsaved {endpoint : Endpoint} {options : OptionSet} {files : FileSystem}
    {fault : Settings.AccessFault} (due : w.SavesNext i options endpoint)
    (fails : Settings.save w.files p.configuration.settings options = (files, .error fault)) :
    w.step p (.advance i) =
      some ({ w with files }.setPhase i (.answered (unsavedAnswer endpoint fault))) := by
  cases endpoint with
  | save =>
    obtain ⟨r, arrived, reached, accepted⟩ := due
    have accepts : accept p w.files r = (files, .answered (unsavedAnswer .save fault)) := by
      rw [accept_eq, respond_of_endpoint? reached, reached]
      simp only [handle, accepted, save, fails]
      rfl
    simp only [World.step, advance, arrived, accepts]
  | apply =>
    have saving : w.requests[i]? = some (.saving options) := due
    simp only [World.step, advance, saving, fails]
    rfl
  | _ => exact absurd due id

theorem SavesNext.stage {endpoint : Endpoint} {options : OptionSet}
    (due : w.SavesNext i options endpoint) : w.stage i = .outside := by
  cases endpoint with
  | save =>
    obtain ⟨r, arrived, -⟩ := due
    exact stage_eq arrived
  | apply => exact stage_eq (show w.requests[i]? = some (.saving options) from due)
  | _ => exact absurd due id

/-- At every moment of every run, a request to save or to apply that fails leaves everything
intact. -/
theorem intact_of_run (p : Panel) (fs : FileSystem) (requests : List Request) (ms : List Move)
    (w : World) (i : Nat) (r : Request) (endpoint : Endpoint) (given : requests[i]? = some r)
    (reached : endpoint? r = some endpoint) (saves : endpoint.Saves)
    (hrun : (start fs requests).run p ms = some w) : Intact p w i r endpoint := by
  have anyMove : (start fs requests).Along p (fun _ _ => True) ms := by
    exact along_iff.2 fun _ _ _ _ _ => trivial
  have lock : Orderly w := by
    refine run_induction (P := fun _ _ => True) ?_ hrun anyMove (orderly_start fs requests)
    intro w w' m h _ s
    exact h.step s
  constructor
  case rejected =>
    intro rejection rejected
    have told := @accept_of_rejected p r endpoint rejection saves reached rejected
    have first : Brief (start fs requests) i r (rejectionAnswer endpoint rejection) := by
      exact .inl (by simp [start, given])
    have brief : Brief w i r (rejectionAnswer endpoint rejection) := by
      refine run_induction (P := fun _ _ => True)
        (Q := fun w => Brief w i r (rejectionAnswer endpoint rejection)) ?_ hrun anyMove first
      intro w w' m h _ s
      exact h.step told s
    exact ⟨status_of_rejected rejected, lock.unlocked brief.stage,
      brief.rejected saves reached rejected⟩
  case unsaved =>
    intro options files fault due fails
    exact ⟨lock.unlocked due.stage, step_of_unsaved due fails,
      Settings.onlyParentsMade_of_save fails⟩

/-- Files in which a directory lies where the snapshot would be. -/
def blockingFiles : FileSystem :=
  ⟨[([Path.ofString "s"], .directory)], []⟩

/-- A request to save that does not say what its body is. -/
def saveUntyped : Request :=
  ⟨"POST", "/save", none, [], none⟩

/-- Options that cannot be saved are about to be, and a body is about to be rejected. -/
theorem intact_blocked : ∃ w,
    (start blockingFiles [applyNothing, saveUntyped]).run idlePanel [.advance 0] = some w ∧
      Intact idlePanel w 0 applyNothing .apply ∧ Intact idlePanel w 1 saveUntyped .save ∧
      w.SavesNext 0 .empty .apply ∧
      Settings.save w.files idlePanel.configuration.settings .empty =
        (w.files, .error ⟨Path.ofString "/s", .isDirectory⟩) ∧
      saveUntyped.options = .error .wrongType := by
  let w : World := ⟨blockingFiles, none, [], [.saving .empty, .arrived saveUntyped], []⟩
  have hrun :
      (start blockingFiles [applyNothing, saveUntyped]).run idlePanel [.advance 0] = some w := rfl
  refine ⟨w, hrun, ?_, ?_, rfl, rfl, rfl⟩
  · exact intact_of_run idlePanel blockingFiles _ _ w 0 applyNothing .apply rfl (by decide +kernel)
      (.inr rfl) hrun
  · exact intact_of_run idlePanel blockingFiles _ _ w 1 saveUntyped .save rfl (by decide +kernel)
      (.inl rfl) hrun

end World

end Panel

end BuildPanel
