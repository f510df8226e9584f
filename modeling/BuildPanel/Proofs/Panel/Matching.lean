import BuildPanel.Proofs.Panel.Soundness

/-!
The same requests one at a time. What has been served one after another matches what there is side
by side: the same lies in the build directory, the same has been answered, and outside either
nothing differs or options can be saved in both. A turn keeps the match, whether it is an action,
the saving of options or an answer that needs no file.
-/

namespace BuildPanel

namespace Panel

open Http FileSystem BuildDirectory

variable {p : Panel} {base : FileSystem} {requests : List Request}

/-- What comes of serving the requests of some numbers one at a time. -/
def served (p : Panel) (base : FileSystem) (requests : List Request) (order : List Nat) :
    FileSystem × List Response :=
  p.serve base (order.filterMap fun i => requests[i]?)

theorem served_concat {order : List Nat} {i : Nat} {r : Request} (given : requests[i]? = some r) :
    p.served base requests (order ++ [i]) =
      ((p.respond (p.served base requests order).1 r).1,
        (p.served base requests order).2 ++
          [(p.respond (p.served base requests order).1 r).2]) := by
  have concat : (order ++ [i]).filterMap (fun i => requests[i]?) =
      order.filterMap (fun i => requests[i]?) ++ [r] := by
    simp [given]
  rw [served, concat, serve_concat]
  rfl

/-- Serving in an order matches files that are there, what will lie in the build directory once the
holder of the lock is done, and what has been answered or will be. -/
structure Matches (p : Panel) (site : Site base p.configuration.build) (requests : List Request)
    (order : List Nat) (files outlook : FileSystem) (owed : Nat → Option Response) : Prop where
  ready : p.Ready site (p.served base requests order).1
  inside : AgreeOn site.Inside (p.served base requests order).1 outlook
  answers : order.map owed = (p.served base requests order).2.map some
  beside : AgreeOn site.Outside (p.served base requests order).1 files ∨
    Settings.Saveable (p.served base requests order).1 p.configuration.settings ∧
      Settings.Saveable files p.configuration.settings

namespace Matches

variable {site : Site base p.configuration.build} {order : List Nat}
  {files files' outlook outlook' : FileSystem} {owed owed' : Nat → Option Response}
  {i : Nat} {r : Request}

theorem start (p : Panel) (site : Site base p.configuration.build) (requests : List Request)
    (owed : Nat → Option Response) : Matches p site requests [] base base owed :=
  ⟨ready_base p site, AgreeOn.refl _ _, rfl, .inl (AgreeOn.refl _ _)⟩

theorem map_concat (answers : order.map owed = (p.served base requests order).2.map some)
    (given : requests[i]? = some r) (same : ∀ k ∈ order, owed' k = owed k)
    (answer : owed' i = some (p.respond (p.served base requests order).1 r).2) :
    (order ++ [i]).map owed' = (p.served base requests (order ++ [i])).2.map some := by
  rw [served_concat given, List.map_append, List.map_append, List.map_congr_left same, answers,
    List.map_singleton, answer]
  rfl

section Apart

variable (apart : Settings.LiesIn base site.Outside p.configuration.settings)

include apart

/-- Nothing is told by what changes in the directory before an action is done, nor outside. -/
theorem congr (h : Matches p site requests order files outlook owed)
    (evolved : p.Evolved site files) (inside : AgreeOn site.Inside outlook outlook')
    (same : ∀ k ∈ order, owed' k = owed k) (outside : AgreeOn site.Outside files files') :
    Matches p site requests order files' outlook' owed' := by
  refine ⟨h.ready, h.inside.trans inside, ?_, ?_⟩
  · rw [List.map_congr_left same]
    exact h.answers
  · rcases h.beside with agree | ⟨first, second⟩
    · exact .inl (agree.trans outside)
    · exact .inr ⟨first, second.congr outside (evolved.liesIn apart)⟩

/-- Options are saved ahead of their turn. -/
theorem save (h : Matches p site requests order files outlook owed) (options : OptionSet)
    (saved : (Settings.save files p.configuration.settings options).2 = .ok ()) :
    Matches p site requests order (Settings.save files p.configuration.settings options).1 outlook
      owed := by
  have saveable := Settings.saveable_of_save saved
  refine ⟨h.ready, h.inside, h.answers, .inr ⟨?_, saveable.save options⟩⟩
  rcases h.beside with agree | ⟨first, -⟩
  · -- The one file system is as the other was before options were saved there.
    refine (Settings.save_congr agree (h.ready.evolved.liesIn apart) .empty).1.symm.trans ?_
    exact saveable
  · exact first

/-- Saving options has its turn. -/
theorem turn_save (h : Matches p site requests order files outlook owed) (options : OptionSet)
    {response : Response} (given : requests[i]? = some r)
    (responds : ∀ fs, (Settings.save fs p.configuration.settings options).2 =
      (Settings.save files p.configuration.settings options).2 →
        p.respond fs r = ((Settings.save fs p.configuration.settings options).1, response))
    (inside : AgreeOn site.Inside outlook outlook') (same : ∀ k ∈ order, owed' k = owed k)
    (answer : owed' i = some response) :
    Matches p site requests (order ++ [i])
      (Settings.save files p.configuration.settings options).1 outlook' owed' := by
  have outcome : (Settings.save (p.served base requests order).1 p.configuration.settings
      options).2 = (Settings.save files p.configuration.settings options).2 := by
    rcases h.beside with agree | ⟨first, second⟩
    · exact (Settings.save_congr agree (h.ready.evolved.liesIn apart) options).1.symm
    · rw [Settings.save_of_saveable first, Settings.save_of_saveable second]
  have responded := responds _ outcome
  have after : (p.served base requests (order ++ [i])).1 =
      (Settings.save (p.served base requests order).1 p.configuration.settings options).1 := by
    rw [served_concat given, responded]
  refine ⟨?_, ?_, map_concat h.answers given same (by rw [responded, answer]), ?_⟩
  · rw [after]
    exact h.ready.save apart options
  · rw [after]
    exact (h.ready.evolved.save_inside apart options).symm.trans (h.inside.trans inside)
  · rw [after]
    rcases h.beside with agree | ⟨first, second⟩
    · exact .inl (Settings.save_congr agree (h.ready.evolved.liesIn apart) options).2
    · exact .inr ⟨first.save options, second.save options⟩

/-- An action has its turn, for which it finds the directory as the one before has left it. -/
theorem turn_action (h : Matches p site requests order files files owed)
    (tool : p.Contained site) (ready : p.Ready site files) {action : Action}
    (given : requests[i]? = some r) (asks : action? r = some action)
    (saveable : ∀ options, action = .apply options →
      Settings.Saveable files p.configuration.settings)
    (same : ∀ k ∈ order, owed' k = owed k) (answer : owed' i = some (p.perform files action).2) :
    Matches p site requests (order ++ [i]) files (p.perform files action).1 owed' := by
  -- Before the action itself, options may have to be saved, which the directory does not notice.
  obtain ⟨before, responds, readied, noticed, aside⟩ : ∃ before,
      p.respond (p.served base requests order).1 r = p.perform before action ∧
        p.Ready site before ∧ AgreeOn site.Inside (p.served base requests order).1 before ∧
          (AgreeOn site.Outside before files ∨
            Settings.Saveable before p.configuration.settings ∧
              Settings.Saveable files p.configuration.settings) := by
    cases action with
    | clean => exact ⟨_, respond_clean asks, h.ready, AgreeOn.refl _ _, h.beside⟩
    | build patience => exact ⟨_, respond_build asks, h.ready, AgreeOn.refl _ _, h.beside⟩
    | apply options =>
      have there := saveable options rfl
      have able : Settings.Saveable (p.served base requests order).1 p.configuration.settings := by
        rcases h.beside with agree | ⟨first, -⟩
        · exact (Settings.save_congr agree (h.ready.evolved.liesIn apart) .empty).1.symm.trans there
        · exact first
      have saved := Settings.save_of_saveable able options
      refine ⟨(Settings.save (p.served base requests order).1 p.configuration.settings options).1,
        ?_, h.ready.save apart options, h.ready.evolved.save_inside apart options,
        .inr ⟨able.save options, there⟩⟩
      rw [respond_apply asks]
      generalize Settings.save (p.served base requests order).1 p.configuration.settings options = s
        at saved ⊢
      obtain ⟨after, outcome⟩ := s
      cases saved
      rfl
  have lands := perform_lands apart tool readied action
  have alike := perform_congr apart tool readied ready (noticed.symm.trans h.inside) action
  have after : (p.served base requests (order ++ [i])).1 = (p.perform before action).1 := by
    rw [served_concat given, responds]
  refine ⟨?_, ?_, map_concat h.answers given same ?_, ?_⟩
  · rw [after]
    exact lands.ready
  · rw [after]
    exact alike.inside
  · rw [answer, responds, alike.answer]
  · rw [after]
    rcases aside with agree | ⟨first, second⟩
    · exact .inl (lands.outside.symm.trans agree)
    · exact .inr ⟨first.congr lands.outside (readied.evolved.liesIn apart), second⟩

end Apart

/-- An answer in which no file plays a part has its turn. -/
theorem turn_told (h : Matches p site requests order files outlook owed) {response : Response}
    (given : requests[i]? = some r) (responds : ∀ fs, p.respond fs r = (fs, response))
    (inside : AgreeOn site.Inside outlook outlook') (same : ∀ k ∈ order, owed' k = owed k)
    (answer : owed' i = some response) :
    Matches p site requests (order ++ [i]) files outlook' owed' := by
  have after : (p.served base requests (order ++ [i])).1 = (p.served base requests order).1 := by
    rw [served_concat given, responds]
  refine ⟨?_, ?_, map_concat h.answers given same (by rw [responds, answer]), ?_⟩
  · rw [after]
    exact h.ready
  · rw [after]
    exact h.inside.trans inside
  · rw [after]
    exact h.beside

end Matches

end Panel

end BuildPanel
