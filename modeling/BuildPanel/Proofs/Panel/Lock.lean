import BuildPanel.Proofs.Panel.Moves

/-!
The lock on the build directory. A request is outside the lock's reach, waits for it, or works under
it. `World.Orderly` says how this goes with the holder and the line of those who wait; every move
keeps it, whoever goes away at whatever moment.
-/

namespace BuildPanel

namespace Panel

open Http

/-- How a request stands to the lock. -/
inductive Stage where
  /-- It has not asked for the lock, or has done with it. -/
  | outside
  /-- It has asked for the lock and has done nothing under it. -/
  | waiting
  /-- It may change the build directory. -/
  | working
  deriving DecidableEq, Repr

/-- How a request in a phase stands to the lock. -/
def Phase.stage : Phase → Stage
  | .waiting _ => .waiting
  | .wiping | .remaking | .launching _ | .running _ _ => .working
  | _ => .outside

namespace World

/-- How the request of a number stands to the lock. -/
def stage (w : World) (i : Nat) : Stage :=
  match w.requests[i]? with
  | some phase => phase.stage
  | none => .outside

theorem stage_eq {w : World} {i : Nat} {phase : Phase} (h : w.requests[i]? = some phase) :
    w.stage i = phase.stage := by
  simp [stage, h]

@[simp] theorem setPhase_holder (w : World) (i : Nat) (phase : Phase) :
    (w.setPhase i phase).holder = w.holder := rfl

@[simp] theorem setPhase_line (w : World) (i : Nat) (phase : Phase) :
    (w.setPhase i phase).line = w.line := rfl

@[simp] theorem setPhase_files (w : World) (i : Nat) (phase : Phase) :
    (w.setPhase i phase).files = w.files := rfl

@[simp] theorem setPhase_children (w : World) (i : Nat) (phase : Phase) :
    (w.setPhase i phase).children = w.children := rfl

/-- Setting a phase is seen at its request and nowhere else. -/
theorem setPhase_requests {w : World} {i : Nat} {old : Phase} (h : w.requests[i]? = some old)
    (phase : Phase) (k : Nat) :
    (w.setPhase i phase).requests[k]? = if k = i then some phase else w.requests[k]? := by
  obtain ⟨bound, _⟩ := List.getElem?_eq_some_iff.1 h
  by_cases hk : k = i
  · subst hk
    simp [setPhase, bound]
  · simp [setPhase, hk, List.getElem?_set_ne (Ne.symm hk)]

theorem setPhase_self {w : World} {i : Nat} {old : Phase} (h : w.requests[i]? = some old)
    (phase : Phase) : (w.setPhase i phase).requests[i]? = some phase :=
  (setPhase_requests h phase i).trans (if_pos rfl)

theorem setPhase_stage {w : World} {i : Nat} {old : Phase} (h : w.requests[i]? = some old)
    (phase : Phase) (k : Nat) :
    (w.setPhase i phase).stage k = if k = i then phase.stage else w.stage k := by
  by_cases hk : k = i <;> simp [stage, setPhase_requests h, hk]

/-- The lock is held by one request, which waits or works; those in line wait, each once; nobody
else waits or works, and nobody waits for a lock that is free. -/
structure Orderly (w : World) : Prop where
  of_working : ∀ i, w.stage i = .working → w.holder = some i
  of_waiting : ∀ i, w.stage i = .waiting → w.holder = some i ∨ i ∈ w.line
  of_holder : ∀ i, w.holder = some i → w.stage i ≠ .outside
  of_line : ∀ i ∈ w.line, w.stage i = .waiting
  nodup : (w.holder.toList ++ w.line).Nodup
  idle : w.holder = none → w.line = []

namespace Orderly

variable {w : World} {i : Nat} {old phase : Phase}

theorem withFiles (h : Orderly w) (files : FileSystem) : Orderly { w with files } :=
  ⟨h.of_working, h.of_waiting, h.of_holder, h.of_line, h.nodup, h.idle⟩

theorem withChildren (h : Orderly w) (children : List Child) : Orderly { w with children } :=
  ⟨h.of_working, h.of_waiting, h.of_holder, h.of_line, h.nodup, h.idle⟩

theorem holder_not_in_line (h : Orderly w) (holds : w.holder = some i) : i ∉ w.line := by
  have nodup := h.nodup
  rw [holds] at nodup
  exact (List.nodup_cons.1 nodup).1

theorem line_nodup (h : Orderly w) : w.line.Nodup :=
  (List.nodup_append.1 h.nodup).2.1

/-- A request that stays outside does not touch the lock. -/
theorem setOutside (h : Orderly w) (at_i : w.requests[i]? = some old)
    (hold : old.stage = .outside) (hphase : phase.stage = .outside) :
    Orderly (w.setPhase i phase) := by
  have same : ∀ k, (w.setPhase i phase).stage k = w.stage k := by
    intro k
    rw [setPhase_stage at_i]
    split
    · rename_i eq
      rw [hphase, eq, stage_eq at_i, hold]
    · rfl
  constructor
  · intro k hk
    exact h.of_working k (same k ▸ hk)
  · intro k hk
    exact h.of_waiting k (same k ▸ hk)
  · intro k hk
    rw [same]
    exact h.of_holder k hk
  · intro k hk
    rw [same]
    exact h.of_line k hk
  · exact h.nodup
  · exact h.idle

/-- The holder goes on with its work. -/
theorem setWorking (h : Orderly w) (at_i : w.requests[i]? = some old)
    (holds : w.holder = some i) (hphase : phase.stage = .working) :
    Orderly (w.setPhase i phase) := by
  have hstage := setPhase_stage at_i phase
  have absent := h.holder_not_in_line holds
  constructor
  · intro k hk
    rw [hstage] at hk
    split at hk
    · rename_i eq
      rw [eq]
      exact holds
    · exact h.of_working k hk
  · intro k hk
    rw [hstage] at hk
    split at hk
    · rename_i eq
      rw [eq]
      exact .inl holds
    · exact h.of_waiting k hk
  · intro k hk
    rw [hstage]
    split
    · simp [hphase]
    · exact h.of_holder k hk
  · intro k hk
    rw [hstage, if_neg]
    · exact h.of_line k hk
    · intro eq
      exact absent (eq ▸ hk)
  · exact h.nodup
  · exact h.idle

/-- A free lock is granted at once. -/
theorem grant (h : Orderly w) (at_i : w.requests[i]? = some old) (free : w.holder = none)
    (hphase : phase.stage = .waiting) :
    Orderly { w.setPhase i phase with holder := some i } := by
  have hstage : ∀ k, { w.setPhase i phase with holder := some i }.stage k = _ :=
    setPhase_stage at_i phase
  have empty : w.line = [] := h.idle free
  constructor
  · intro k hk
    rw [hstage] at hk
    split at hk
    · rw [hphase] at hk
      cases hk
    · have := h.of_working k hk
      rw [free] at this
      cases this
  · intro k hk
    rw [hstage] at hk
    split at hk
    · rename_i eq
      rw [eq]
      exact .inl rfl
    · have := h.of_waiting k hk
      simp [free, empty] at this
  · intro k hk
    obtain rfl : i = k := Option.some.inj hk
    rw [hstage, if_pos rfl, hphase]
    simp
  · intro k hk
    simp [empty] at hk
  · simp [empty]
  · intro hk
    cases hk

/-- A lock that is taken is waited for at the end of the line. -/
theorem enqueue (h : Orderly w) (at_i : w.requests[i]? = some old) (taken : w.holder ≠ none)
    (hold : old.stage = .outside) (hphase : phase.stage = .waiting) :
    Orderly { w.setPhase i phase with line := w.line ++ [i] } := by
  have hstage : ∀ k, { w.setPhase i phase with line := w.line ++ [i] }.stage k = _ :=
    setPhase_stage at_i phase
  have notHolder : w.holder ≠ some i := by
    intro holds
    exact h.of_holder i holds (by rw [stage_eq at_i, hold])
  have absent : i ∉ w.line := by
    intro member
    have := h.of_line i member
    rw [stage_eq at_i, hold] at this
    cases this
  constructor
  · intro k hk
    rw [hstage] at hk
    split at hk
    · rw [hphase] at hk
      cases hk
    · exact h.of_working k hk
  · intro k hk
    rw [hstage] at hk
    split at hk
    · rename_i eq
      exact .inr (by simp [eq])
    · exact (h.of_waiting k hk).imp id fun member => List.mem_append_left _ member
  · intro k hk
    rw [hstage, if_neg]
    · exact h.of_holder k hk
    · rintro rfl
      exact notHolder hk
  · intro k hk
    rw [hstage]
    split
    · exact hphase
    · rename_i ne
      refine h.of_line k ?_
      simpa [ne] using hk
  · obtain ⟨j, hj⟩ := Option.ne_none_iff_exists'.1 taken
    have nodup := h.nodup
    rw [hj] at nodup
    have ne : j ≠ i := fun eq => notHolder (eq ▸ hj)
    simp only [setPhase_holder, hj, Option.toList_some, ← List.append_assoc]
    refine List.nodup_append.2 ⟨nodup, by simp, ?_⟩
    intro a ha b hb
    obtain rfl := List.mem_singleton.1 hb
    rintro rfl
    simp only [List.singleton_append, List.mem_cons] at ha
    rcases ha with eq | member
    · exact ne eq.symm
    · exact absent member
  · intro free
    exact absurd free taken

/-- The holder has done with the lock, which goes to the first in line. -/
theorem release (h : Orderly w) (at_i : w.requests[i]? = some old) (holds : w.holder = some i)
    (hphase : phase.stage = .outside) : Orderly (w.setPhase i phase).release := by
  have hstage : ∀ k, (w.setPhase i phase).release.stage k = _ := setPhase_stage at_i phase
  have absent := h.holder_not_in_line holds
  have nodup := h.line_nodup
  -- All that wait in line are others than the one that leaves.
  have waits : ∀ k ∈ w.line, (w.setPhase i phase).release.stage k = .waiting := by
    intro k hk
    rw [hstage, if_neg]
    · exact h.of_line k hk
    · rintro rfl
      exact absent hk
  constructor
  · intro k hk
    rw [hstage] at hk
    split at hk
    · rw [hphase] at hk
      cases hk
    · rename_i ne
      have := h.of_working k hk
      rw [holds] at this
      exact absurd (Option.some.inj this).symm ne
  · intro k hk
    rw [hstage] at hk
    split at hk
    · rw [hphase] at hk
      cases hk
    · rename_i ne
      rcases h.of_waiting k hk with eq | member
      · rw [holds] at eq
        exact absurd (Option.some.inj eq).symm ne
      · cases hl : w.line with
        | nil => simp [hl] at member
        | cons first rest =>
          rw [hl] at member
          simp only [World.release, setPhase_line, hl, List.head?_cons, List.tail_cons,
            Option.some.injEq]
          rcases List.mem_cons.1 member with eq | later
          · exact .inl eq.symm
          · exact .inr later
  · intro k hk
    rw [waits k (List.mem_of_mem_head? hk)]
    simp
  · intro k hk
    exact waits k (List.mem_of_mem_tail hk)
  · simp only [World.release, setPhase_line]
    cases hl : w.line with
    | nil => simp
    | cons first rest => simpa [hl] using nodup
  · intro free
    have : w.line = [] := List.head?_eq_none_iff.1 free
    simp [World.release, this]

/-- One that waits in line goes away. -/
theorem dropFromLine (h : Orderly w) (at_i : w.requests[i]? = some old)
    (waits : w.holder ≠ some i) (hphase : phase.stage = .outside) :
    Orderly { w.setPhase i phase with line := w.line.erase i } := by
  have hstage : ∀ k, { w.setPhase i phase with line := w.line.erase i }.stage k = _ :=
    setPhase_stage at_i phase
  have nodup := h.line_nodup
  constructor
  · intro k hk
    rw [hstage] at hk
    split at hk
    · rw [hphase] at hk
      cases hk
    · exact h.of_working k hk
  · intro k hk
    rw [hstage] at hk
    split at hk
    · rw [hphase] at hk
      cases hk
    · rename_i ne
      exact (h.of_waiting k hk).imp id fun member => (List.mem_erase_of_ne ne).2 member
  · intro k hk
    rw [hstage, if_neg]
    · exact h.of_holder k hk
    · rintro rfl
      exact waits hk
  · intro k hk
    obtain ⟨ne, member⟩ := nodup.mem_erase_iff.1 hk
    rw [hstage, if_neg ne]
    exact h.of_line k member
  · exact h.nodup.sublist ((List.erase_sublist).append_left _)
  · intro free
    have : w.line = [] := h.idle free
    simp [this]

end Orderly

/-- All requests have just arrived. -/
theorem orderly_start (fs : FileSystem) (requests : List Request) :
    Orderly (start fs requests) := by
  have outside : ∀ i, (start fs requests).stage i = .outside := by
    intro i
    cases h : requests[i]? <;> simp [stage, start, h, Phase.stage]
  refine ⟨?_, ?_, ?_, ?_, List.nodup_nil, fun _ => rfl⟩
  · intro i hi
    rw [outside] at hi
    cases hi
  · intro i hi
    rw [outside] at hi
    cases hi
  · intro i hi
    cases hi
  · intro i hi
    cases hi

theorem stage_accept (p : Panel) (fs : FileSystem) (r : Request) :
    (accept p fs r).2.stage = .outside := by
  unfold accept
  dsimp only
  split <;> rfl

/-- Every move keeps the lock in order. -/
theorem Orderly.step {p : Panel} {w w' : World} {m : Move} (h : Orderly w) (s : Step p w m w') :
    Orderly w' := by
  cases s with
  | accepted phase =>
    exact (h.withFiles _).setOutside phase rfl (stage_accept p w.files _)
  | unsaved phase _ => exact (h.withFiles _).setOutside phase rfl rfl
  | saved phase _ => exact (h.withFiles _).setOutside phase rfl rfl
  | granted phase free => exact h.grant phase free rfl
  | queued phase taken => exact h.enqueue phase taken rfl rfl
  | refused phase holds _ => exact (h.withFiles _).release phase holds rfl
  | entered phase holds _ => exact (h.withFiles _).setWorking phase holds rfl
  | prepared phase _ holds _ => exact (h.withFiles _).setWorking phase holds rfl
  | unwiped phase _ =>
    exact (h.withFiles _).release phase (h.of_working _ (stage_eq phase)) rfl
  | wiped phase _ =>
    exact (h.withFiles _).setWorking phase (h.of_working _ (stage_eq phase)) rfl
  | remade phase =>
    exact (h.withFiles _).release phase (h.of_working _ (stage_eq phase)) rfl
  | unstarted phase _ => exact h.release phase (h.of_working _ (stage_eq phase)) rfl
  | started phase _ =>
    exact (h.setWorking phase (h.of_working _ (stage_eq phase)) rfl).withChildren _
  | finished phase _ => exact h.release phase (h.of_working _ (stage_eq phase)) rfl
  | exited _ => exact h.withChildren _
  | acted _ => exact (h.withFiles _).withChildren _
  | lostHolding phase _ holds => exact h.release phase holds rfl
  | lostInLine phase _ waits => exact h.dropFromLine phase waits rfl
  | lostRunning phase _ => exact h.release phase (h.of_working _ (stage_eq phase)) rfl

end World

end Panel

end BuildPanel
