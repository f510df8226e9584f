import BuildPanel.Proofs.Panel.Lock

/-!
How far requests come, and in which order. A request only goes forward: from its arrival it may come
to save options, then it asks for the lock, waits for it, works under it and is answered. Three
things on the way are milestones: options are saved, the lock is asked for, a child is started. In
every run a request comes past each of them at most once, and the children are started in the order
in which their requests have asked for the lock, whoever fails or goes away in between.
-/

namespace BuildPanel

namespace Panel

open Http

/-- How far a request in a phase has come. -/
@[simp] def Phase.progress : Phase → Nat
  | .arrived _ => 0
  | .saving _ => 1
  | .asking _ => 2
  | .waiting _ => 3
  | .wiping | .launching _ => 4
  | .remaking | .running _ _ => 5
  | .answered _ | .dropped => 6

/-- Something that gets done for a request. -/
inductive Milestone where
  /-- The options to configure with have been saved. -/
  | saved
  /-- The lock has been asked for. -/
  | asked
  /-- The child has been started. -/
  | launched
  deriving DecidableEq, Repr

namespace Milestone

/-- How far a request has come as it gets past a milestone. -/
@[simp] def progress : Milestone → Nat
  | saved => 2
  | asked => 3
  | launched => 5

/-- Whether a milestone lies between two phases. -/
def between : Milestone → Phase → Phase → Bool
  | saved, .saving _, .asking _ => true
  | asked, .asking _, .waiting _ => true
  | launched, .launching _, .running _ _ => true
  | _, _, _ => false

theorem progress_of_between {s : Milestone} {old new : Phase} (h : s.between old new = true) :
    old.progress + 1 = s.progress ∧ new.progress = s.progress := by
  unfold between at h
  split at h
  · simp
  · simp
  · simp
  · cases h

end Milestone

namespace World

/-- How far the request of a number has come. -/
def progress (w : World) (i : Nat) : Nat :=
  match w.requests[i]? with
  | some phase => phase.progress
  | none => 0

/-- The request that comes past a milestone with a move. -/
def passing (w w' : World) (s : Milestone) : Move → Option Nat
  | .advance i =>
    match w.requests[i]?, w'.requests[i]? with
    | some old, some new => if s.between old new then some i else none
    | _, _ => none
  | _ => none

/-- The requests that come past a milestone in a run, in their order. -/
def order (p : Panel) (s : Milestone) (w : World) : List Move → List Nat
  | [] => []
  | m :: ms =>
    match w.step p m with
    | none => []
    | some w' => (w.passing w' s m).toList ++ w'.order p s ms

theorem order_cons {p : Panel} {s : Milestone} {w w' : World} {m : Move} {ms : List Move}
    (hstep : w.step p m = some w') :
    w.order p s (m :: ms) = (w.passing w' s m).toList ++ w'.order p s ms := by
  rw [order, hstep]

/-- What is kept by every move, as milestones are passed, holds of the orders of a run. -/
theorem order_induction {p : Panel} {P : World → Move → Prop}
    {Q : (Milestone → List Nat) → World → Prop}
    (keep : ∀ {orders : Milestone → List Nat} {w w' : World} {m : Move}, Q orders w → P w m →
      Step p w m w' → Q (fun s => orders s ++ (w.passing w' s m).toList) w') {w w' : World}
    {ms : List Move} {orders : Milestone → List Nat} (hrun : w.run p ms = some w')
    (halong : w.Along p P ms) (h : Q orders w) :
    Q (fun s => orders s ++ w.order p s ms) w' := by
  induction ms generalizing w orders with
  | nil =>
    cases hrun
    simpa only [order, List.append_nil] using h
  | cons m ms ih =>
    obtain ⟨next, hstep, hrest⟩ := Option.bind_eq_some_iff.1 hrun
    have later := ih hrest (halong.2 next hstep) (keep h halong.1 (step_cases hstep))
    simpa only [order_cons hstep, List.append_assoc] using later

variable {p : Panel} {w w' : World} {m : Move} {s : Milestone} {i : Nat} {old new : Phase}

theorem progress_eq {phase : Phase} (h : w.requests[i]? = some phase) :
    w.progress i = phase.progress := by
  simp [progress, h]

theorem passing_eq_some : w.passing w' s m = some i ↔ m = .advance i ∧
    ∃ old new, w.requests[i]? = some old ∧ w'.requests[i]? = some new ∧
      s.between old new = true := by
  constructor
  · intro h
    unfold passing at h
    split at h
    · split at h
      · split at h
        · cases h
          exact ⟨rfl, _, _, ‹_›, ‹_›, ‹_›⟩
        · cases h
      · cases h
    · cases h
  · rintro ⟨rfl, old, new, before, after, lies⟩
    simp [passing, before, after, lies]

/-! ### Forward only -/

section Moved

variable (at_i : w.requests[i]? = some old)
  (requests : ∀ k, w'.requests[k]? = if k = i then some new else w.requests[k]?)

include requests

theorem progress_of_moved (k : Nat) :
    w'.progress k = if k = i then new.progress else w.progress k := by
  by_cases eq : k = i
  · have after : w'.requests[k]? = some new := by rw [requests, if_pos eq]
    rw [progress_eq after, if_pos eq]
  · unfold progress
    rw [requests, if_neg eq, if_neg eq]

include at_i

theorem progress_le_of_moved (onward : old.progress ≤ new.progress) (k : Nat) :
    w.progress k ≤ w'.progress k := by
  rw [progress_of_moved requests]
  split
  · rename_i eq
    rw [eq, progress_eq at_i]
    exact onward
  · exact Nat.le_refl _

theorem passing_of_moved (s : Milestone) :
    w.passing w' s (.advance i) = if s.between old new then some i else none := by
  simp [passing, at_i, requests]

end Moved

/-- No request ever goes back. -/
theorem progress_le (step : Step p w m w') (k : Nat) : w.progress k ≤ w'.progress k := by
  cases step with
  | exited _ => exact Nat.le_refl _
  | acted _ => exact Nat.le_refl _
  | _ phase => exact progress_le_of_moved phase (setPhase_requests phase _) (by simp) k

/-- Only the request whose move it is gets further. -/
theorem mover_of_lt (step : Step p w m w') (further : w.progress i < w'.progress i) :
    m = .advance i ∨ m = .leave i := by
  have mover : ∀ {k new},
      (∀ l, w'.requests[l]? = if l = k then some new else w.requests[l]?) → i = k := by
    intro k new requests
    refine Decidable.byContradiction fun other => ?_
    rw [progress_of_moved requests, if_neg other] at further
    exact Nat.lt_irrefl _ further
  cases step with
  | exited _ => exact absurd further (Nat.lt_irrefl _)
  | acted _ => exact absurd further (Nat.lt_irrefl _)
  | lostHolding phase _ _ => exact .inr (mover (setPhase_requests phase _) ▸ rfl)
  | lostInLine phase _ _ => exact .inr (mover (setPhase_requests phase _) ▸ rfl)
  | lostRunning phase _ => exact .inr (mover (setPhase_requests phase _) ▸ rfl)
  | _ phase => exact .inl (mover (setPhase_requests phase _) ▸ rfl)

theorem progress_of_passing (h : w.passing w' s m = some i) :
    w.progress i + 1 = s.progress ∧ w'.progress i = s.progress := by
  obtain ⟨-, old, new, before, after, lies⟩ := passing_eq_some.1 h
  rw [progress_eq before, progress_eq after]
  exact Milestone.progress_of_between lies

/-- Nobody comes past a milestone twice, and who is past it has come as far. -/
structure Passed (orders : Milestone → List Nat) (w : World) : Prop where
  reached : ∀ s, ∀ i ∈ orders s, s.progress ≤ w.progress i
  nodup : ∀ s, (orders s).Nodup

theorem passed_nil (w : World) : Passed (fun _ => []) w :=
  ⟨nofun, fun _ => List.nodup_nil⟩

theorem Passed.step {orders : Milestone → List Nat} (h : Passed orders w)
    (step : Step p w m w') :
    Passed (fun s => orders s ++ (w.passing w' s m).toList) w' := by
  constructor
  · intro s i member
    rcases List.mem_append.1 member with before | now
    · exact Nat.le_trans (h.reached s i before) (progress_le step i)
    · exact Nat.le_of_eq (progress_of_passing (Option.mem_toList.1 now)).2.symm
  · intro s
    refine List.nodup_append.2 ⟨h.nodup s, ?_, ?_⟩
    · cases w.passing w' s m <;> simp
    · rintro i before k now rfl
      have far := h.reached s i before
      have near := (progress_of_passing (Option.mem_toList.1 now)).1
      omega

/-! ### First come, first served -/

/-- The requests that have asked for the lock and still have to use it, in their order. -/
def pending (w : World) : List Nat :=
  (w.holder.filter fun i => w.progress i < Milestone.launched.progress).toList ++ w.line

/-- A move keeps the order: who starts a child was the first that had to, and who asks for the lock
comes last. -/
def InTurn (w w' : World) (m : Move) : Prop :=
  ((w.passing w' .launched m).toList ++ w'.pending).Sublist
    (w.pending ++ (w.passing w' .asked m).toList)

/-- While the holder stays the same, it can only come to have used the lock. -/
theorem holding_sublist (holder : w'.holder = w.holder)
    (onward : ∀ k, w.progress k ≤ w'.progress k) :
    (w'.holder.filter fun i => w'.progress i < Milestone.launched.progress).toList.Sublist
      (w.holder.filter fun i => w.progress i < Milestone.launched.progress).toList := by
  rw [holder]
  cases w.holder with
  | none => exact .slnil
  | some i =>
    simp only [Option.filter_some, decide_eq_true_eq]
    by_cases before : w'.progress i < Milestone.launched.progress
    · have earlier := Nat.lt_of_le_of_lt (onward i) before
      simp only [if_pos before, if_pos earlier, List.Sublist.refl]
    · rw [if_neg before]
      exact List.nil_sublist _

theorem pending_of_line (holder : w'.holder = w.holder)
    (onward : ∀ k, w.progress k ≤ w'.progress k) (line : w'.line.Sublist w.line) :
    w'.pending.Sublist w.pending :=
  (holding_sublist holder onward).append line

/-- When the lock goes to the first in line, nobody comes before the others. -/
theorem pending_release (holder : w'.holder = w.line.head?) (line : w'.line = w.line.tail) :
    w'.pending.Sublist w.pending := by
  have whole : w'.pending.Sublist w.line := by
    unfold pending
    rw [holder, line]
    cases w.line with
    | nil => exact .slnil
    | cons first rest =>
      simp only [List.head?_cons, List.tail_cons, Option.filter_some]
      split
      · exact .refl _
      · exact List.sublist_cons_self first rest
  exact whole.trans (List.sublist_append_right _ _)

theorem pending_enqueue (holder : w'.holder = w.holder)
    (onward : ∀ k, w.progress k ≤ w'.progress k) (line : w'.line = w.line ++ [i]) :
    w'.pending.Sublist (w.pending ++ [i]) := by
  unfold pending
  rw [line, ← List.append_assoc]
  exact ((holding_sublist holder onward).append_right _).append_right _

theorem pending_grant (holder : w'.holder = some i) (line : w'.line = []) :
    w'.pending.Sublist (w.pending ++ [i]) := by
  have alone : w'.pending.Sublist [i] := by
    unfold pending
    rw [holder, line, List.append_nil, Option.filter_some]
    split
    · exact .refl _
    · exact List.nil_sublist _
  exact alone.trans (List.sublist_append_right _ _)

theorem pending_launch (holds : w.holder = some i) (holder : w'.holder = w.holder)
    (line : w'.line = w.line) (launches : w.passing w' .launched m = some i) :
    w.pending = i :: w'.pending := by
  obtain ⟨before, after⟩ := progress_of_passing launches
  unfold pending
  rw [holder, line, holds, Option.filter_some, Option.filter_some,
    if_pos (decide_eq_true (Nat.lt_of_succ_le (Nat.le_of_eq before))), if_neg (by simp [after])]
  rfl

namespace InTurn

theorem aside (still : w.passing w' .launched m = none) (behind : w'.pending.Sublist w.pending) :
    InTurn w w' m := by
  unfold InTurn
  rw [still]
  exact behind.trans (List.sublist_append_left _ _)

theorem asks (still : w.passing w' .launched m = none) (now : w.passing w' .asked m = some i)
    (behind : w'.pending.Sublist (w.pending ++ [i])) : InTurn w w' m := by
  unfold InTurn
  rw [still, now]
  exact behind

theorem launches (holds : w.holder = some i) (holder : w'.holder = w.holder)
    (line : w'.line = w.line) (now : w.passing w' .launched m = some i) : InTurn w w' m := by
  unfold InTurn
  rw [pending_launch holds holder line now, now]
  exact List.sublist_append_left _ _

end InTurn

theorem inTurn (lock : Orderly w) (step : Step p w m w') : InTurn w w' m := by
  have onward := progress_le step
  cases step with
  | accepted phase =>
    exact .aside (passing_of_moved phase (setPhase_requests phase _) _)
      (pending_of_line rfl onward (.refl _))
  | unsaved phase _ =>
    exact .aside (passing_of_moved phase (setPhase_requests phase _) _)
      (pending_of_line rfl onward (.refl _))
  | saved phase _ =>
    exact .aside (passing_of_moved phase (setPhase_requests phase _) _)
      (pending_of_line rfl onward (.refl _))
  | granted phase free =>
    exact .asks (passing_of_moved phase (setPhase_requests phase _) _)
      (passing_of_moved phase (setPhase_requests phase _) _) (pending_grant rfl (lock.idle free))
  | queued phase _ =>
    exact .asks (passing_of_moved phase (setPhase_requests phase _) _)
      (passing_of_moved phase (setPhase_requests phase _) _) (pending_enqueue rfl onward rfl)
  | refused phase _ _ =>
    exact .aside (passing_of_moved phase (setPhase_requests phase _) _) (pending_release rfl rfl)
  | entered phase _ _ =>
    exact .aside (passing_of_moved phase (setPhase_requests phase _) _)
      (pending_of_line rfl onward (.refl _))
  | prepared phase _ _ _ =>
    exact .aside (passing_of_moved phase (setPhase_requests phase _) _)
      (pending_of_line rfl onward (.refl _))
  | unwiped phase _ =>
    exact .aside (passing_of_moved phase (setPhase_requests phase _) _) (pending_release rfl rfl)
  | wiped phase _ =>
    exact .aside (passing_of_moved phase (setPhase_requests phase _) _)
      (pending_of_line rfl onward (.refl _))
  | remade phase =>
    exact .aside (passing_of_moved phase (setPhase_requests phase _) _) (pending_release rfl rfl)
  | unstarted phase _ =>
    exact .aside (passing_of_moved phase (setPhase_requests phase _) _) (pending_release rfl rfl)
  | started phase _ =>
    exact .launches (lock.of_working _ (stage_eq phase)) rfl rfl
      (passing_of_moved phase (setPhase_requests phase _) _)
  | finished phase _ =>
    exact .aside (passing_of_moved phase (setPhase_requests phase _) _) (pending_release rfl rfl)
  | exited _ => exact .aside rfl (pending_of_line rfl onward (.refl _))
  | acted _ => exact .aside rfl (pending_of_line rfl onward (.refl _))
  | lostHolding _ _ _ => exact .aside rfl (pending_release rfl rfl)
  | lostInLine _ _ _ => exact .aside rfl (pending_of_line rfl onward List.erase_sublist)
  | lostRunning _ _ => exact .aside rfl (pending_release rfl rfl)

/-- Those who have started a child, and after them those who still have to use the lock, stand in the
order in which they have asked for it. -/
structure Queued (orders : Milestone → List Nat) (w : World) : Prop where
  lock : Orderly w
  fair : (orders .launched ++ w.pending).Sublist (orders .asked)

theorem queued_start (fs : FileSystem) (requests : List Request) :
    Queued (fun _ => []) (start fs requests) :=
  ⟨orderly_start fs requests, .slnil⟩

theorem Queued.step {orders : Milestone → List Nat} (h : Queued orders w)
    (step : Step p w m w') : Queued (fun s => orders s ++ (w.passing w' s m).toList) w' := by
  refine ⟨h.lock.step step, ?_⟩
  have onward := (inTurn h.lock step).append_left (orders .launched)
  rw [← List.append_assoc, ← List.append_assoc] at onward
  exact onward.trans (h.fair.append_right _)

/-- Children are started in the order in which their requests have asked for the lock; no request
comes before one that has asked earlier, unless that one starts no child. -/
theorem launched_sublist_asked {fs : FileSystem} {requests : List Request} {ms : List Move}
    (hrun : (start fs requests).run p ms = some w) :
    ((start fs requests).order p .launched ms).Sublist
      ((start fs requests).order p .asked ms) := by
  have queued := order_induction (P := fun _ _ => True) (fun h _ step => h.step step) hrun
    (along_iff.2 fun _ _ _ _ _ => trivial) (queued_start fs requests)
  exact (List.sublist_append_left _ _).trans queued.fair

end World

end Panel

end BuildPanel
