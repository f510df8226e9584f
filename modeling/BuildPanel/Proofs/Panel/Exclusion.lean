import BuildPanel.Proofs.Panel.Lock

/-!
One action at a time in the build directory. A child may outlive the request that has started it,
because a client that goes away takes the request and its lock along but not the child. So the
directory is used exclusively at every moment of exactly those runs in which no client goes away
while a child of its request lives.
-/

namespace BuildPanel

namespace Panel

open Http

namespace World

/-- A child that has been started has not ended. -/
def Lives (w : World) (j : Nat) : Prop :=
  ∃ course written, w.children[j]? = some ⟨course, written, none⟩

/-- A move makes, removes or remakes the build directory for a request that cleans. -/
def Cleans (w : World) (m : Move) : Prop :=
  ∃ i, m = .advance i ∧ (w.requests[i]? = some (.waiting .clean) ∨
    w.requests[i]? = some .wiping ∨ w.requests[i]? = some .remaking)

/-- The client of a request goes away while the child of the request lives. A build does not depend
on its client, and so cannot lose it. -/
def Abandons (w : World) (m : Move) : Prop :=
  ∃ i action j, m = .leave i ∧ (∀ patience, action ≠ .build patience) ∧
    w.requests[i]? = some (.running action j) ∧ w.Lives j

/-- Every child that lives is the child of a request. -/
def Attended (w : World) : Prop :=
  ∀ j, w.Lives j → ∃ (i : Nat) (action : Action), w.requests[i]? = some (.running action j)

namespace Attended

variable {w : World}

theorem congr {w' : World} (h : Attended w) (requests : w'.requests = w.requests)
    (children : w'.children = w.children) : Attended w' := by
  intro j hj
  unfold Lives at hj
  rw [children] at hj
  rw [requests]
  exact h j hj

/-- A request may leave a phase in which no child of it lives. -/
theorem setPhase {i : Nat} {old : Phase} (h : Attended w) (at_i : w.requests[i]? = some old)
    (childless : ∀ action j, old = .running action j → ¬ w.Lives j) (phase : Phase) :
    Attended (w.setPhase i phase) := by
  intro j hj
  obtain ⟨k, action, hk⟩ := h j hj
  refine ⟨k, action, ?_⟩
  rw [setPhase_requests at_i, if_neg]
  · exact hk
  · rintro rfl
    rw [at_i] at hk
    exact childless action j (Option.some.inj hk) hj

/-- Every move that does not abandon a child keeps all that live attended. -/
theorem step {p : Panel} {w' : World} {m : Move} (h : Attended w) (lock : Orderly w)
    (kept : ¬ w.Abandons m) (s : Step p w m w') : Attended w' := by
  cases s with
  | accepted phase => exact (h.setPhase phase nofun _).congr rfl rfl
  | unsaved phase _ => exact (h.setPhase phase nofun _).congr rfl rfl
  | saved phase _ => exact (h.setPhase phase nofun _).congr rfl rfl
  | granted phase _ => exact (h.setPhase phase nofun _).congr rfl rfl
  | queued phase _ => exact (h.setPhase phase nofun _).congr rfl rfl
  | refused phase _ _ => exact (h.setPhase phase nofun _).congr rfl rfl
  | entered phase _ _ => exact (h.setPhase phase nofun _).congr rfl rfl
  | prepared phase _ _ _ => exact (h.setPhase phase nofun _).congr rfl rfl
  | unwiped phase _ => exact (h.setPhase phase nofun _).congr rfl rfl
  | wiped phase _ => exact (h.setPhase phase nofun _).congr rfl rfl
  | remade phase => exact (h.setPhase phase nofun _).congr rfl rfl
  | unstarted phase _ => exact (h.setPhase phase nofun _).congr rfl rfl
  | @started i action course phase _ =>
    intro j hj
    by_cases new : j = w.children.length
    · refine ⟨i, action, ?_⟩
      rw [new]
      exact (setPhase_requests phase _ i).trans (if_pos rfl)
    · -- A child that lived before would hold the lock through another request.
      obtain ⟨c, written, hc⟩ := hj
      have bound : j < w.children.length := by
        obtain ⟨lt, _⟩ := List.getElem?_eq_some_iff.1 hc
        simp only [List.length_append, List.length_singleton] at lt
        omega
      have old : w.Lives j := ⟨c, written, by rwa [List.getElem?_append_left bound] at hc⟩
      obtain ⟨k, other, hk⟩ := h j old
      have first := lock.of_working i (stage_eq phase)
      have second := lock.of_working k (stage_eq hk)
      rw [first] at second
      obtain rfl := Option.some.inj second
      rw [phase] at hk
      cases hk
  | @finished i j action course written status phase ended =>
    refine (h.setPhase phase ?_ _).congr rfl rfl
    rintro other k ⟨⟩ ⟨c, before, living⟩
    rw [ended] at living
    cases living
  | @exited j written status child =>
    intro k hk
    refine h k ?_
    obtain ⟨c, before, hc⟩ := hk
    by_cases same : k = j
    · obtain ⟨bound, _⟩ := List.getElem?_eq_some_iff.1 child
      subst same
      simp [bound] at hc
    · exact ⟨c, before, by simpa [List.getElem?_set_ne (Ne.symm same)] using hc⟩
  | @acted j step next written child =>
    intro k hk
    refine h k ?_
    obtain ⟨c, before, hc⟩ := hk
    by_cases same : k = j
    · subst same
      exact ⟨_, _, child⟩
    · exact ⟨c, before, by simpa [List.getElem?_set_ne (Ne.symm same)] using hc⟩
  | lostHolding phase _ _ => exact (h.setPhase phase nofun _).congr rfl rfl
  | lostInLine phase _ _ => exact (h.setPhase phase nofun _).congr rfl rfl
  | @lostRunning i j action phase dependent =>
    refine (h.setPhase phase ?_ _).congr rfl rfl
    rintro other k ⟨⟩ living
    exact kept ⟨i, action, j, rfl, dependent, phase, living⟩

end Attended

/-- A client that leaves a child behind can do so at once. -/
theorem Abandons.made {w : World} {m : Move} (h : w.Abandons m) (p : Panel) :
    ∃ w', w.step p m = some w' := by
  obtain ⟨i, action, j, rfl, dependent, phase, -⟩ := h
  refine ⟨(w.setPhase i .dropped).release, ?_⟩
  cases action with
  | build patience => exact absurd rfl (dependent patience)
  | clean => simp [step, leave, phase]
  | apply options => simp [step, leave, phase]

/-- A machine on which every program ends at once. -/
def idleMachine : Machine :=
  ⟨fun _ => some fun _ _ => .exit (.code 0), []⟩

/-- A panel that keeps its settings in `/s` and builds in `/b` with the program `/t`. -/
def idlePanel : Panel :=
  ⟨⟨⟨.v4 127 0 0 1, 5000⟩, Path.ofString "/", Path.ofString "/s", Path.ofString "/b", "/t"⟩,
    idleMachine⟩

/-- Files with nothing but the build tool. -/
def toolFiles : FileSystem :=
  ⟨[([Path.ofString "t"], .file [] true)], []⟩

/-- The files after no options have been saved. -/
def savedFiles : FileSystem :=
  (Settings.save toolFiles idlePanel.configuration.settings .empty).1

/-- The files after the build directory has been made as well. -/
def builtFiles : FileSystem :=
  (BuildDirectory.ensure savedFiles idlePanel.configuration.build).1

/-- A request to configure with no options. -/
def applyNothing : Request :=
  ⟨"POST", "/apply", some (Text.bytes "application/json"), Text.bytes "{}", none⟩

end World

end Panel

end BuildPanel
