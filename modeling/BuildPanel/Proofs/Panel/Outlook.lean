import BuildPanel.Proofs.Panel.Matching

/-!
What the holder of the lock will have done when it is through, if nothing else happens. Its own
moves and those of its child bring it about and do not change it; nor does whatever else happens
meanwhile: no request notices that options are saved or that the page makes the directory.
-/

namespace BuildPanel

namespace Panel

open Http FileSystem BuildDirectory

namespace World

variable {p : Panel} {base : FileSystem} {requests : List Request} {w w' : World}

/-- What is left of an action from one of its phases on: the files and the answer at its end. -/
def rest (p : Panel) (w : World) : Phase → Option (FileSystem × Response)
  | .waiting action => some (p.perform w.files action)
  | .wiping => some (p.empty w.files)
  | .remaking => some (p.remake w.files)
  | .launching action => some (p.launch w.files action)
  | .running action j =>
    match w.children[j]? with
    | some ⟨course, written, none⟩ =>
      let (more, files, status) := course.run w.files
      some (files, ending action (written ++ more) status)
    | some ⟨_, written, some status⟩ => some (w.files, ending action written status)
    | none => none
  | _ => none

/-- How the action of the holder ends. -/
def conclusion (p : Panel) (w : World) : Option (FileSystem × Response) :=
  match w.holder with
  | none => none
  | some i =>
    match w.requests[i]? with
    | none => none
    | some phase => w.rest p phase

/-- The files as the holder will leave them. -/
def outlook (p : Panel) (w : World) : FileSystem :=
  match w.conclusion p with
  | none => w.files
  | some (files, _) => files

/-- The answer that a request has got, or that it will get as the holder of the lock. -/
def owed (p : Panel) (w : World) (i : Nat) : Option Response :=
  if w.holder = some i then (w.conclusion p).map Prod.snd else w.response? i

theorem conclusion_of_holder {i : Nat} {phase : Phase} (holds : w.holder = some i)
    (at_i : w.requests[i]? = some phase) : w.conclusion p = w.rest p phase := by
  rw [conclusion, holds]
  dsimp only
  rw [at_i]

theorem conclusion_of_free (free : w.holder = none) : w.conclusion p = none := by
  rw [conclusion, free]

theorem outlook_of_conclusion {files : FileSystem} {response : Response}
    (h : w.conclusion p = some (files, response)) : w.outlook p = files := by
  rw [outlook, h]

theorem outlook_of_free (free : w.holder = none) : w.outlook p = w.files := by
  rw [outlook, conclusion_of_free free]

theorem owed_of_holder {i : Nat} {files : FileSystem} {response : Response}
    (holds : w.holder = some i) (h : w.conclusion p = some (files, response)) :
    w.owed p i = some response := by
  rw [owed, if_pos holds, h]
  rfl

theorem owed_of_other {i : Nat} (other : w.holder ≠ some i) : w.owed p i = w.response? i :=
  if_neg other

/-- What is owed changes with the conclusion and with the answers, and with nothing else. -/
theorem owed_congr {i : Nat} (holder : w'.holder = w.holder)
    (same : (w'.conclusion p).map Prod.snd = (w.conclusion p).map Prod.snd)
    (answer : w'.response? i = w.response? i) : w'.owed p i = w.owed p i := by
  rw [owed, owed, holder, same, answer]

variable {site : Site base p.configuration.build}

section Elsewhere

variable (apart : Settings.LiesIn base site.Outside p.configuration.settings)
  (tool : p.Contained site)

include apart tool

/-- What is left of an action depends only on what is in the build directory. -/
theorem rest_congr (h : Sound p site requests w) {phase : Phase}
    (standing : phase = .remaking ∨ site.Present w.files) (children : w'.children = w.children)
    (evolved : p.Evolved site w'.files) (inside : AgreeOn site.Inside w.files w'.files) :
    w.rest p phase = none ∧ w'.rest p phase = none ∨
      ∃ result result', w.rest p phase = some result ∧ w'.rest p phase = some result' ∧
        Alike site result result' := by
  have ready : phase ≠ .remaking → p.Ready site w.files := fun other =>
    ⟨h.evolved, standing.resolve_left other⟩
  have ready' : phase ≠ .remaking → p.Ready site w'.files := fun other =>
    ⟨evolved, (ready other).present.of_inside inside⟩
  cases phase with
  | waiting action =>
    exact .inr ⟨_, _, rfl, rfl, perform_congr apart tool (ready nofun) (ready' nofun) inside action⟩
  | wiping =>
    exact .inr ⟨_, _, rfl, rfl, empty_congr apart (ready nofun) (ready' nofun) inside⟩
  | remaking =>
    exact .inr ⟨_, _, rfl, rfl, remake_congr apart h.evolved evolved inside h.present_or_gone⟩
  | launching action =>
    exact .inr ⟨_, _, rfl, rfl, launch_congr tool (ready nofun) (ready' nofun) inside action⟩
  | running action j =>
    simp only [rest, children]
    cases child : w.children[j]? with
    | none => exact .inl ⟨rfl, rfl⟩
    | some c =>
      obtain ⟨course, written, ended⟩ := c
      cases ended with
      | some status => exact .inr ⟨_, _, rfl, rfl, ⟨rfl, inside⟩⟩
      | none =>
        have within := h.within _ (List.mem_of_getElem? child) rfl
        obtain ⟨more, status, inside'⟩ := run_congr within (ready nofun) (ready' nofun) inside
        refine .inr ⟨_, _, rfl, rfl, ⟨?_, inside'⟩⟩
        dsimp only
        rw [more, status]
  | arrived r => exact .inl ⟨rfl, rfl⟩
  | saving options => exact .inl ⟨rfl, rfl⟩
  | asking action => exact .inl ⟨rfl, rfl⟩
  | answered response => exact .inl ⟨rfl, rfl⟩
  | dropped => exact .inl ⟨rfl, rfl⟩

/-- What happens elsewhere does not change how the holder ends. -/
theorem conclusion_congr (h : Sound p site requests w) (lock : Orderly w)
    (holder : w'.holder = w.holder)
    (phases : ∀ k, w.holder = some k → w'.requests[k]? = w.requests[k]?)
    (children : w'.children = w.children) (evolved : p.Evolved site w'.files)
    (inside : AgreeOn site.Inside w.files w'.files) :
    w.conclusion p = none ∧ w'.conclusion p = none ∨
      ∃ result result', w.conclusion p = some result ∧ w'.conclusion p = some result' ∧
        Alike site result result' := by
  cases holds : w.holder with
  | none => exact .inl ⟨conclusion_of_free holds, conclusion_of_free (holder.trans holds)⟩
  | some k =>
    cases at_k : w.requests[k]? with
    | none =>
      refine .inl ⟨?_, ?_⟩
      · rw [conclusion, holds]
        dsimp only
        rw [at_k]
      · rw [conclusion, holder, holds]
        dsimp only
        rw [phases k holds, at_k]
    | some phase =>
      rw [conclusion_of_holder holds at_k,
        conclusion_of_holder (holder.trans holds) ((phases k holds).trans at_k)]
      refine rest_congr apart tool h ?_ children evolved inside
      by_cases remaking : phase = .remaking
      · exact .inl remaking
      · exact .inr (h.ready_of_holder lock holds at_k remaking).present

/-- Nor does it change what is owed, but for a request that is answered by it. -/
theorem outlook_congr (h : Sound p site requests w) (lock : Orderly w)
    (holder : w'.holder = w.holder)
    (phases : ∀ k, w.holder = some k → w'.requests[k]? = w.requests[k]?)
    (children : w'.children = w.children) (evolved : p.Evolved site w'.files)
    (inside : AgreeOn site.Inside w.files w'.files) :
    AgreeOn site.Inside (w.outlook p) (w'.outlook p) ∧
      ∀ k, w'.response? k = w.response? k → w'.owed p k = w.owed p k := by
  rcases conclusion_congr apart tool h lock holder phases children evolved inside with
    ⟨first, second⟩ | ⟨result, result', first, second, alike⟩
  · refine ⟨?_, fun k answer => owed_congr holder ?_ answer⟩
    · rw [outlook, outlook, first, second]
      exact inside
    · rw [first, second]
  · refine ⟨?_, fun k answer => owed_congr holder ?_ answer⟩
    · rw [outlook, outlook, first, second]
      exact alike.inside
    · rw [first, second]
      exact congrArg some alike.answer

end Elsewhere

end World

end Panel

end BuildPanel
