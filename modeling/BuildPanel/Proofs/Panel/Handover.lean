import BuildPanel.Proofs.Panel.Serial

/-!
Turns by the lock. A request that gets the lock has its turn, whether it finds the lock free or is
handed it; what it does under the lock is what its turn foretells, and so are the steps of its
child.
-/

namespace BuildPanel

namespace Panel

open Http FileSystem BuildDirectory

namespace World

variable {p : Panel} {base : FileSystem} {requests : List Request} {w w' : World}
  {site : Site base p.configuration.build} {order : List Nat} {i : Nat} {old phase : Phase}

namespace Serial

section Holding

variable (apart : Settings.LiesIn base site.Outside p.configuration.settings)
  (tool : p.Contained site)

include apart tool

/-- The lock, if it has been given to another request, is a turn of that request. -/
theorem hand (h : Serial p site requests order w) (sound : Sound p site requests w')
    (lock : Orderly w')
    (turned : ∀ k, w'.Turned requests k ↔ w.Turned requests k ∨ w'.holder = some k)
    (fresh : ∀ k, w'.holder = some k → ¬ w.Turned requests k ∧
      ∃ action, w'.requests[k]? = some (.waiting action))
    (same : Matches p site requests order w'.files w'.files w'.response?) :
    Serial p site requests (order ++ w'.holder.toList) w' := by
  cases holds : w'.holder with
  | none =>
    refine h.quiet ?_ ?_
    · intro k
      rw [turned k, holds]
      simp
    · rw [outlook_of_free holds]
      have owed : w'.owed p = w'.response? := by
        funext k
        exact owed_of_other (by simp [holds])
      rw [owed]
      exact same
  | some k =>
    obtain ⟨first, action, waiting⟩ := fresh k holds
    obtain ⟨r, given, fits⟩ := sound.fits k _ waiting
    have ready := sound.ready_of_holder lock holds waiting (by simp)
    have conclusion : w'.conclusion p = some (p.perform w'.files action) :=
      conclusion_of_holder holds waiting
    cases fits with
    | waiting asks =>
      refine h.next first ?_ ?_
      · intro l
        rw [turned l, holds, Option.some_inj, eq_comm]
      · rw [outlook_of_conclusion conclusion]
        refine same.turn_action apart tool ready given asks ?_ ?_ ?_
        · rintro options rfl
          exact sound.saveable k _ options waiting rfl
        · intro l member
          refine owed_of_other ?_
          rw [holds]
          rintro ⟨⟩
          exact first ((h.mem k).1 member)
        · exact owed_of_holder holds conclusion

/-- A request gets the lock, which is free. -/
theorem granted (h : Serial p site requests order w) (sound : Sound p site requests w)
    (sound' : Sound p site requests w') (lock : Orderly w) (lock' : Orderly w') {action : Action}
    (at_i : w.requests[i]? = some (.asking action)) (free : w.holder = none)
    (moved : w' = { w.setPhase i (.waiting action) with holder := some i }) :
    Serial p site requests (order ++ (w.turn w' (.advance i)).toList) w' := by
  have phases : ∀ k, w'.requests[k]? =
      if k = i then some (.waiting action) else w.requests[k]? := by
    rw [moved]
    exact setPhase_requests at_i (.waiting action)
  have holds : w'.holder = some i := by rw [moved]
  have files : w'.files = w.files := by rw [moved]; rfl
  have first : ¬ w.Turned requests i := not_turned lock at_i rfl (by simp)
  have changed : w'.holder ≠ w.holder := by
    simp [holds, free]
  rw [turn_of_holder changed]
  refine h.hand apart tool sound' lock' ?_ ?_ ?_
  · intro k
    rw [Turned, Turned, holds, free]
    by_cases itself : k = i
    · subst itself
      exact iff_of_true (.inl rfl) (.inr rfl)
    · rw [phases, if_neg itself]
      simp [Ne.symm itself]
  · intro k held
    rw [holds] at held
    cases held
    exact ⟨first, action, (phases i).trans (if_pos rfl)⟩
  · have same := h.same
    rw [outlook_of_free free] at same
    rw [files]
    refine same.congr apart sound.evolved (AgreeOn.refl _ _) ?_ (AgreeOn.refl _ _)
    intro k member
    rw [owed_of_other (by simp [free])]
    exact response?_of_moved phases k (h.ne_of_mem first member)

/-- The holder of the lock is through and gives it to the next in line. -/
theorem finished (h : Serial p site requests order w) (sound : Sound p site requests w)
    (sound' : Sound p site requests w') (lock : Orderly w) (lock' : Orderly w')
    (at_i : w.requests[i]? = some old) (holds : w.holder = some i) {files : FileSystem}
    {response : Response} (conclusion : w.conclusion p = some (files, response))
    (outside : AgreeOn site.Outside w.files files)
    (moved : w' = { w with files }.answer i response) :
    Serial p site requests (order ++ (w.turn w' (.advance i)).toList) w' := by
  have phases : ∀ k, w'.requests[k]? =
      if k = i then some (.answered response) else w.requests[k]? := by
    rw [moved]
    exact setPhase_requests (w := { w with files }) at_i (.answered response)
  have heir : w'.holder = w.line.head? := by rw [moved]; rfl
  have after : w'.files = files := by rw [moved]; rfl
  have changed : w'.holder ≠ w.holder := by
    rw [heir, holds]
    intro again
    exact lock.holder_not_in_line holds (List.mem_of_mem_head? again)
  obtain ⟨r, given, other⟩ : ∃ r, requests[i]? = some r ∧ ¬ AsksForPage r := by
    obtain ⟨r, given, fits⟩ := sound.fits i old at_i
    refine ⟨r, given, fun page => ?_⟩
    exact lock.of_holder i holds ((stage_eq at_i).trans (fits.outside_of_page page))
  rw [turn_of_holder changed]
  refine h.hand apart tool sound' lock' ?_ ?_ ?_
  · intro k
    by_cases itself : k = i
    · subst itself
      refine iff_of_true (.inr ⟨r, response, given, other, ?_⟩) (.inl (.inl holds))
      exact (phases k).trans (if_pos rfl)
    · rw [Turned, Turned, phases, if_neg itself, holds]
      simp only [Option.some_inj, Ne.symm itself, false_or]
      exact or_comm
  · intro k held
    have member : k ∈ w.line := List.mem_of_mem_head? (heir.symm.trans held)
    have waits := lock.of_line k member
    have itself : k ≠ i := by
      rintro rfl
      exact lock.holder_not_in_line holds member
    obtain ⟨action, at_k⟩ : ∃ action, w.requests[k]? = some (.waiting action) := by
      unfold stage at waits
      split at waits
      · next phase at_k =>
        cases phase with
        | waiting action => exact ⟨action, at_k⟩
        | _ => cases waits
      · cases waits
    refine ⟨?_, action, ((phases k).trans (if_neg itself)).trans at_k⟩
    rintro (held' | ⟨_, _, -, -, answered⟩)
    · rw [holds] at held'
      exact itself (Option.some.inj held').symm
    · rw [at_k] at answered
      cases answered
  · rw [after]
    have same := h.same
    rw [outlook_of_conclusion conclusion] at same
    refine same.congr apart sound.evolved (AgreeOn.refl _ _) ?_ outside
    intro k _
    by_cases itself : k = i
    · subst itself
      rw [owed_of_holder holds conclusion, response?, phases, if_pos rfl]
    · rw [owed_of_other (by rw [holds]; exact fun eq => itself (Option.some.inj eq).symm)]
      exact response?_of_moved phases k itself

omit tool in
/-- The holder of the lock, or its child, goes on to the end that was to be expected. -/
theorem under (h : Serial p site requests order w) (sound : Sound p site requests w)
    (holder : w'.holder = w.holder) {result : FileSystem × Response}
    (before : w.conclusion p = some result) (after : w'.conclusion p = some result)
    (turned : ∀ k, w'.Turned requests k ↔ w.Turned requests k)
    (answers : ∀ k, w.holder ≠ some k → w'.response? k = w.response? k)
    (outside : AgreeOn site.Outside w.files w'.files) :
    Serial p site requests (order ++ []) w' := by
  refine h.quiet turned (h.same.congr apart sound.evolved ?_ ?_ outside)
  · rw [outlook_of_conclusion before, outlook_of_conclusion after]
    exact AgreeOn.refl _ _
  · intro k _
    by_cases holds : w.holder = some k
    · rw [owed_of_holder holds before, owed_of_holder (holder.trans holds) after]
    · rw [owed_of_other holds, owed_of_other (by rw [holder]; exact holds), answers k holds]

omit tool in
/-- The holder of the lock goes on to another phase. -/
theorem goUnder (h : Serial p site requests order w) (sound : Sound p site requests w)
    (at_i : w.requests[i]? = some old) (holds : w.holder = some i)
    (moved : ∀ k, w'.requests[k]? = if k = i then some phase else w.requests[k]?)
    (still : ∀ response, phase ≠ .answered response) (holder : w'.holder = w.holder)
    {result : FileSystem × Response} (before : w.rest p old = some result)
    (after : w'.rest p phase = some result) (outside : AgreeOn site.Outside w.files w'.files) :
    Serial p site requests (order ++ (w.turn w' (.advance i)).toList) w' := by
  have unanswered : w'.response? i = none := by
    rw [response?, moved, if_pos rfl]
    cases phase with
    | answered response => exact absurd rfl (still response)
    | _ => rfl
  rw [turn_of_unanswered holder unanswered]
  refine h.under apart sound holder ((conclusion_of_holder holds at_i).trans before)
    ((conclusion_of_holder (holder.trans holds) ((moved i).trans (if_pos rfl))).trans after) ?_ ?_
    outside
  · intro k
    by_cases itself : k = i
    · subst itself
      exact iff_of_true (.inl (holder.trans holds)) (.inl holds)
    · exact turned_of_moved moved holder k itself
  · intro k other
    refine response?_of_moved moved k ?_
    rintro rfl
    exact other holds

omit tool in
/-- The child of the holder goes on. -/
theorem child (h : Serial p site requests order w) (sound : Sound p site requests w) {j : Nat}
    {action : Action} (at_i : w.requests[i]? = some (.running action j)) (holds : w.holder = some i)
    (phases : w'.requests = w.requests) (holder : w'.holder = w.holder)
    {result : FileSystem × Response} (before : w.rest p (.running action j) = some result)
    (after : w'.rest p (.running action j) = some result)
    (outside : AgreeOn site.Outside w.files w'.files) :
    Serial p site requests (order ++ (w.turn w' (.act j)).toList) w' := by
  have at_i' : w'.requests[i]? = some (.running action j) := by rw [phases, at_i]
  rw [turn_of_act holder]
  refine h.under apart sound holder ((conclusion_of_holder holds at_i).trans before)
    ((conclusion_of_holder (holder.trans holds) at_i').trans after) ?_ ?_ outside
  · intro k
    rw [Turned, Turned, holder, phases]
  · intro k _
    rw [response?, response?, phases]

/-- Every move but the departure of a client keeps the match with the turns. -/
theorem step (h : Serial p site requests order w) (sound : Sound p site requests w)
    (lock : Orderly w) (attended : Attended w) {m : Move} (stays : ∀ i, m ≠ .leave i)
    (s : Step p w m w') : Serial p site requests (order ++ (w.turn w' m).toList) w' := by
  have sound' := sound.step apart tool lock attended stays s
  have lock' := lock.step s
  cases s with
  | accepted phase => exact h.accepted apart tool sound lock phase sound'.evolved rfl
  | unsaved phase outcome => exact h.unsaved apart tool sound lock phase outcome rfl
  | saved phase outcome => exact h.saved apart tool sound lock phase outcome rfl
  | granted phase free => exact h.granted apart tool sound sound' lock lock' phase free rfl
  | queued phase taken =>
    exact h.goOn apart tool sound lock phase rfl (by simp) (setPhase_requests phase _) rfl rfl
      sound'.evolved (AgreeOn.refl _ _) (by simp) h.same
  | @refused i action files e phase holds outcome =>
    have ready := sound.ready_of_holder lock holds phase (by simp)
    rw [ensure_of_ready apart ready] at outcome
    cases outcome
  | @entered i files phase holds outcome =>
    have ready := sound.ready_of_holder lock holds phase (by simp)
    rw [ensure_of_ready apart ready] at outcome
    cases outcome
    have before : w.rest p (.waiting .clean) = some (p.empty w.files) :=
      congrArg some (perform_of_ready apart ready .clean)
    exact h.goUnder apart sound phase holds (setPhase_requests phase _) (by simp) rfl before rfl
      (AgreeOn.refl _ _)
  | @prepared i action files phase other holds outcome =>
    have ready := sound.ready_of_holder lock holds phase (by simp)
    rw [ensure_of_ready apart ready] at outcome
    cases outcome
    have before : w.rest p (.waiting action) = some (p.launch w.files action) := by
      rw [rest, perform_of_ready apart ready]
      cases action with
      | clean => exact absurd rfl other
      | _ => rfl
    exact h.goUnder apart sound phase holds (setPhase_requests phase _) (by simp) rfl before rfl
      (AgreeOn.refl _ _)
  | @unwiped i files e phase outcome =>
    have holds := lock.of_working i (stage_eq phase)
    have ready := sound.ready_of_holder lock holds phase (by simp)
    have outside := site.wiped_outside w.files
    rw [← wipe_of_ready apart ready, outcome] at outside
    have conclusion : w.conclusion p = some (files, cleanAnswer (.error e)) := by
      rw [conclusion_of_holder holds phase, rest, empty, outcome]
    exact h.finished apart tool sound sound' lock lock' phase holds conclusion outside rfl
  | @wiped i files phase outcome =>
    have holds := lock.of_working i (stage_eq phase)
    have ready := sound.ready_of_holder lock holds phase (by simp)
    have outside := site.wiped_outside w.files
    rw [← wipe_of_ready apart ready, outcome] at outside
    have before : w.rest p .wiping = some (p.remake files) := by
      rw [rest, empty, outcome]
    exact h.goUnder apart sound phase holds (setPhase_requests phase _) (by simp) rfl before rfl
      outside
  | @remade i phase =>
    have holds := lock.of_working i (stage_eq phase)
    have lands := remake_lands apart sound.evolved sound.present_or_gone
    exact h.finished apart tool sound sound' lock lock' phase holds
      (conclusion_of_holder holds phase) lands.outside rfl
  | @unstarted i action fault phase outcome =>
    have holds := lock.of_working i (stage_eq phase)
    have conclusion : w.conclusion p = some (w.files, spawnFailure action fault) := by
      rw [conclusion_of_holder holds phase, rest, launch, outcome]
    exact h.finished apart tool sound sound' lock lock' phase holds conclusion
      (AgreeOn.refl _ _) rfl
  | @started i action course phase outcome =>
    have holds := lock.of_working i (stage_eq phase)
    have before : w.rest p (.launching action) =
        some ((course.run w.files).2.1,
          ending action (course.run w.files).1 (course.run w.files).2.2) := by
      rw [rest, launch, outcome]
    refine h.goUnder apart sound phase holds (setPhase_requests phase _) (by simp) rfl before ?_
      (AgreeOn.refl _ _)
    simp [rest]
  | @finished i j action course written status phase ended =>
    have holds := lock.of_working i (stage_eq phase)
    have conclusion : w.conclusion p = some (w.files, ending action written status) := by
      rw [conclusion_of_holder holds phase, rest, ended]
    exact h.finished apart tool sound sound' lock lock' phase holds conclusion
      (AgreeOn.refl _ _) rfl
  | @exited j written status child =>
    obtain ⟨i, action, running⟩ := attended j ⟨_, _, child⟩
    obtain ⟨bound, -⟩ := List.getElem?_eq_some_iff.1 child
    have before : w.rest p (.running action j) = some (w.files, ending action written status) := by
      rw [rest, child]
      simp [Course.run]
    refine h.child apart sound running (lock.of_working i (stage_eq running)) rfl rfl before ?_
      (AgreeOn.refl _ _)
    simp [rest, bound]
  | @acted j step next written child =>
    obtain ⟨i, action, running⟩ := attended j ⟨_, _, child⟩
    obtain ⟨bound, -⟩ := List.getElem?_eq_some_iff.1 child
    have holds := lock.of_working i (stage_eq running)
    have ready := sound.ready_of_holder lock holds running (by simp)
    have within := sound.within _ (List.mem_of_getElem? child) rfl
    have before : w.rest p (.running action j) = some (((next w.files).run (step w.files).2).2.1,
        ending action (written ++ ((step w.files).1 ++ ((next w.files).run (step w.files).2).1))
          ((next w.files).run (step w.files).2).2.2) := by
      rw [rest, child]
      rfl
    refine h.child apart sound running holds rfl rfl before ?_
      (ready.step (within.1 w.files ready)).2
    simp [rest, bound]
  | lostHolding _ _ _ => exact absurd rfl (stays _)
  | lostInLine _ _ _ => exact absurd rfl (stays _)
  | lostRunning _ _ => exact absurd rfl (stays _)

end Holding

end Serial

end World

end Panel

end BuildPanel
