import BuildPanel.Proofs.Panel.Exclusion
import BuildPanel.Proofs.Panel.Shelter

/-!
What holds of the files at every moment of a run. Whoever is about to start the build tool finds the
build directory there: it is missing only while a request that cleans is about to make it anew, and
that request holds the lock. Outside the directory nothing happens but that options are saved.
-/

namespace BuildPanel

namespace Panel

open Http FileSystem BuildDirectory

/-- A phase that a request can be in. -/
inductive Fits (r : Request) : Phase → Prop where
  | arrived : Fits r (.arrived r)
  | saving {options : OptionSet} (asks : action? r = some (.apply options)) :
      Fits r (.saving options)
  | asking {action : Action} (asks : action? r = some action) : Fits r (.asking action)
  | waiting {action : Action} (asks : action? r = some action) : Fits r (.waiting action)
  | wiping (asks : action? r = some .clean) : Fits r .wiping
  | remaking (asks : action? r = some .clean) : Fits r .remaking
  | launching {action : Action} (asks : action? r = some action) (other : action ≠ .clean) :
      Fits r (.launching action)
  | running {action : Action} {j : Nat} (asks : action? r = some action) (other : action ≠ .clean) :
      Fits r (.running action j)
  | answered (response : Response) : Fits r (.answered response)

/-- A request for the page stays out of the lock's reach. -/
theorem Fits.outside_of_page {r : Request} {phase : Phase} (h : Fits r phase)
    (page : AsksForPage r) : phase.stage = .outside := by
  have idle := action?_of_page page
  cases h with
  | waiting asks => cases idle.symm.trans asks
  | wiping asks => cases idle.symm.trans asks
  | remaking asks => cases idle.symm.trans asks
  | launching asks other => cases idle.symm.trans asks
  | running asks other => cases idle.symm.trans asks
  | _ => rfl

/-- The action of a phase before the lock is granted, for which options have been saved. -/
def Phase.applying? : Phase → Option OptionSet
  | .asking (.apply options) => some options
  | .waiting (.apply options) => some options
  | _ => none

namespace World

variable {p : Panel} {base : FileSystem} {requests : List Request} {w w' : World}

/-- The phases are those of the requests; outside the build directory nothing has happened but that
options have been saved; the directory is there, unless a request is about to make it anew; and all
children that live work in it alone. -/
structure Sound (p : Panel) (site : Site base p.configuration.build) (requests : List Request)
    (w : World) : Prop where
  fits : ∀ (i : Nat) phase, w.requests[i]? = some phase → ∃ r, requests[i]? = some r ∧ Fits r phase
  evolved : p.Evolved site w.files
  standing : site.Present w.files ∨
    site.Gone w.files ∧ ∃ i : Nat, w.requests[i]? = some .remaking
  saveable : ∀ (i : Nat) phase options, w.requests[i]? = some phase →
    phase.applying? = some options → Settings.Saveable w.files p.configuration.settings
  started : ∀ (i : Nat) action j, w.requests[i]? = some (.running action j) → j < w.children.length
  within : ∀ child ∈ w.children, child.ended = none → child.course.Within site (p.Ready site)

variable {site : Site base p.configuration.build}

namespace Sound

variable {i : Nat} {old phase : Phase}

/-- As long as no request makes it anew, the directory is there. -/
theorem ready (h : Sound p site requests w) (none : ∀ i : Nat, w.requests[i]? ≠ some .remaking) :
    p.Ready site w.files := by
  refine ⟨h.evolved, ?_⟩
  rcases h.standing with present | ⟨-, i, remaking⟩
  · exact present
  · exact absurd remaking (none i)

/-- While the holder of the lock does something else, the directory is there. -/
theorem ready_of_holder (h : Sound p site requests w) (lock : Orderly w)
    (holds : w.holder = some i) (at_i : w.requests[i]? = some phase)
    (other : phase ≠ .remaking) : p.Ready site w.files := by
  refine h.ready ?_
  intro k remaking
  have working := lock.of_working k (stage_eq remaking)
  rw [holds] at working
  obtain rfl := Option.some.inj working
  rw [at_i] at remaking
  exact other (Option.some.inj remaking)

theorem present_or_gone (h : Sound p site requests w) :
    site.Present w.files ∨ site.Gone w.files :=
  h.standing.imp id And.left

/-- A request goes on to another phase, and the files change with it. -/
theorem update (h : Sound p site requests w) (at_i : w.requests[i]? = some old)
    (fit : ∀ r, Fits r old → Fits r phase)
    (moved : ∀ k, w'.requests[k]? = if k = i then some phase else w.requests[k]?)
    (evolved : p.Evolved site w'.files)
    (standing : site.Present w'.files ∨ site.Gone w'.files ∧
      (phase = .remaking ∨ old ≠ .remaking ∧ ∃ k : Nat, w.requests[k]? = some .remaking))
    (saveable : ∀ options, phase.applying? = some options →
      Settings.Saveable w'.files p.configuration.settings)
    (still : Settings.Saveable w.files p.configuration.settings →
      Settings.Saveable w'.files p.configuration.settings)
    (more : w.children.length ≤ w'.children.length)
    (started : ∀ action j, phase = .running action j → j < w'.children.length)
    (within : ∀ child ∈ w'.children, child.ended = none →
      child.course.Within site (p.Ready site)) : Sound p site requests w' := by
  refine ⟨?_, evolved, ?_, ?_, ?_, within⟩
  · intro k phase' hk
    rw [moved] at hk
    split at hk
    · next same =>
      cases hk
      obtain ⟨r, given, fits⟩ := h.fits i old at_i
      exact ⟨r, same ▸ given, fit r fits⟩
    · exact h.fits k phase' hk
  · refine standing.imp id ?_
    rintro ⟨gone, rfl | ⟨other, k, remaking⟩⟩
    · exact ⟨gone, i, (moved i).trans (if_pos rfl)⟩
    · refine ⟨gone, k, ?_⟩
      rw [moved, if_neg]
      · exact remaking
      · rintro rfl
        rw [at_i] at remaking
        exact other (Option.some.inj remaking)
  · intro k phase' options hk applying
    rw [moved] at hk
    split at hk
    · cases hk
      exact saveable options applying
    · exact still (h.saveable k phase' options hk applying)
  · intro k action j hk
    rw [moved] at hk
    split at hk
    · exact started action j (Option.some.inj hk)
    · have before := h.started k action j hk
      omega

section Kept

variable (apart : Settings.LiesIn base site.Outside p.configuration.settings)

include apart

/-- A request acts in the build directory, or leaves the files alone. -/
theorem act (h : Sound p site requests w) (at_i : w.requests[i]? = some old)
    (fit : ∀ r, Fits r old → Fits r phase)
    (moved : ∀ k, w'.requests[k]? = if k = i then some phase else w.requests[k]?)
    (children : w'.children = w.children)
    (agree : AgreeOn site.Outside w.files w'.files)
    (standing : site.Present w'.files ∨ site.Gone w'.files ∧
      (phase = .remaking ∨ old ≠ .remaking ∧ ∃ k : Nat, w.requests[k]? = some .remaking))
    (applied : ∀ options, phase.applying? = some options → old.applying? = some options)
    (idle : ∀ action j, phase ≠ .running action j) : Sound p site requests w' := by
  have still : Settings.Saveable w.files p.configuration.settings →
      Settings.Saveable w'.files p.configuration.settings :=
    fun saveable => saveable.congr agree (h.evolved.liesIn apart)
  refine h.update at_i fit moved (h.evolved.of_agree agree) standing ?_ still ?_ ?_ ?_
  · intro options applying
    exact still (h.saveable i old options at_i (applied options applying))
  · exact Nat.le_of_eq (congrArg List.length children).symm
  · intro action j running
    exact absurd running (idle action j)
  · rw [children]
    exact h.within

/-- A request saves options. -/
theorem save (h : Sound p site requests w) (at_i : w.requests[i]? = some old)
    (fit : ∀ r, Fits r old → Fits r phase)
    (moved : ∀ k, w'.requests[k]? = if k = i then some phase else w.requests[k]?)
    (children : w'.children = w.children) (options : OptionSet)
    (files : w'.files = (Settings.save w.files p.configuration.settings options).1)
    (other : old ≠ .remaking)
    (applied : ∀ options', phase.applying? = some options' →
      (Settings.save w.files p.configuration.settings options).2 = .ok ())
    (idle : ∀ action j, phase ≠ .running action j) : Sound p site requests w' := by
  have still : Settings.Saveable w.files p.configuration.settings →
      Settings.Saveable w'.files p.configuration.settings := by
    intro saveable
    rw [files]
    exact saveable.save options
  have inside := h.evolved.save_inside apart options
  rw [← files] at inside
  refine h.update at_i fit moved ?_ ?_ ?_ still ?_ ?_ ?_
  · rw [files]
    exact h.evolved.save apart options
  · refine h.standing.imp (fun present => present.of_inside inside) ?_
    rintro ⟨gone, remaking⟩
    exact ⟨gone.of_inside inside, .inr ⟨other, remaking⟩⟩
  · intro options' applying
    exact still (Settings.saveable_of_save (applied options' applying))
  · exact Nat.le_of_eq (congrArg List.length children).symm
  · intro action j running
    exact absurd running (idle action j)
  · rw [children]
    exact h.within

/-- A request goes on without touching the files. -/
theorem still (h : Sound p site requests w) (at_i : w.requests[i]? = some old)
    (fit : ∀ r, Fits r old → Fits r phase)
    (moved : ∀ k, w'.requests[k]? = if k = i then some phase else w.requests[k]?)
    (children : w'.children = w.children) (files : w'.files = w.files) (other : old ≠ .remaking)
    (applied : ∀ options, phase.applying? = some options → old.applying? = some options)
    (idle : ∀ action j, phase ≠ .running action j) : Sound p site requests w' := by
  refine h.act apart at_i fit moved children ?_ ?_ applied idle
  · rw [files]
    exact AgreeOn.refl _ _
  · rw [files]
    exact h.standing.imp id fun gone => ⟨gone.1, .inr ⟨other, gone.2⟩⟩

end Kept

end Sound

section Step

variable (apart : Settings.LiesIn base site.Outside p.configuration.settings)
  (tool : p.Contained site)

include apart

/-- A request that is answered at once leaves the directory there. -/
theorem Sound.accepted (h : Sound p site requests w) {i : Nat} {r : Request}
    (at_i : w.requests[i]? = some (.arrived r)) :
    Sound p site requests
      ({ w with files := (accept p w.files r).1 }.setPhase i (accept p w.files r).2) := by
  cases asks : action? r with
  | some action =>
    rw [accept_of_action asks]
    have fit : ∀ r', Fits r' (.arrived r) → Fits r' action.first := by
      rintro r' ⟨⟩
      cases action with
      | clean => exact .asking asks
      | build patience => exact .asking asks
      | apply options => exact .saving asks
    refine h.still apart at_i fit (setPhase_requests at_i _) rfl rfl nofun ?_ ?_
    · intro options applying
      cases action <;> cases applying
    · intro action' j running
      cases action <;> cases running
  | none =>
    rw [accept_of_none asks]
    have fit : ∀ r', Fits r' (.arrived r) → Fits r' (.answered (p.respond w.files r).2) :=
      fun _ _ => .answered _
    by_cases page : AsksForPage r
    · have lands := remake_lands apart h.evolved h.present_or_gone
      rcases respond_page page with same | made
      · exact h.still apart at_i fit (setPhase_requests at_i _) rfl same nofun nofun nofun
      · refine h.act apart at_i fit (setPhase_requests at_i _) rfl ?_ (.inl ?_) nofun nofun
        · change AgreeOn site.Outside w.files (p.respond w.files r).1
          rw [made]
          exact lands.outside
        · change site.Present (p.respond w.files r).1
          rw [made]
          exact lands.ready.present
    · rcases respond_of_none asks page with ⟨options, responds⟩ | ⟨response, responds⟩
      · refine h.save apart at_i fit (setPhase_requests at_i _) rfl options ?_ nofun nofun nofun
        change (p.respond w.files r).1 = _
        rw [responds]
        rfl
      · refine h.still apart at_i fit (setPhase_requests at_i _) rfl ?_ nofun nofun nofun
        change (p.respond w.files r).1 = _
        rw [responds]

include tool

/-- Every move but the departure of a client keeps a world sound. -/
theorem Sound.step (h : Sound p site requests w) (lock : Orderly w) (attended : Attended w)
    {m : Move} (stays : ∀ i, m ≠ .leave i) (s : Step p w m w') : Sound p site requests w' := by
  cases s with
  | accepted phase => exact h.accepted apart phase
  | @unsaved i options files fault phase outcome =>
    refine h.save apart phase (fun _ _ => .answered _) (setPhase_requests phase _) rfl options ?_
      nofun nofun nofun
    exact (congrArg Prod.fst outcome).symm
  | @saved i options files phase outcome =>
    refine h.save apart phase ?_ (setPhase_requests phase _) rfl options ?_ nofun ?_ nofun
    · rintro r (_ | asks)
      exact .asking asks
    · exact (congrArg Prod.fst outcome).symm
    · rintro options' -
      exact congrArg Prod.snd outcome
  | @granted i action phase free =>
    refine h.still apart phase ?_ (setPhase_requests phase _) rfl rfl nofun ?_ nofun
    · rintro r (_ | _ | asks)
      exact .waiting asks
    · cases action <;> exact fun _ => id
  | @queued i action phase taken =>
    refine h.still apart phase ?_ (setPhase_requests phase _) rfl rfl nofun ?_ nofun
    · rintro r (_ | _ | asks)
      exact .waiting asks
    · cases action <;> exact fun _ => id
  | @refused i action files e phase holds outcome =>
    have ready := h.ready_of_holder lock holds phase nofun
    rw [ensure_of_ready apart ready] at outcome
    cases outcome
  | @entered i files phase holds outcome =>
    have ready := h.ready_of_holder lock holds phase nofun
    rw [ensure_of_ready apart ready] at outcome
    cases outcome
    refine h.still apart phase ?_ (setPhase_requests phase _) rfl rfl nofun nofun nofun
    rintro r (_ | _ | _ | asks)
    exact .wiping asks
  | @prepared i action files phase other holds outcome =>
    have ready := h.ready_of_holder lock holds phase nofun
    rw [ensure_of_ready apart ready] at outcome
    cases outcome
    refine h.still apart phase ?_ (setPhase_requests phase _) rfl rfl nofun nofun nofun
    rintro r (_ | _ | _ | asks)
    exact .launching asks other
  | @unwiped i files e phase outcome =>
    have ready := h.ready_of_holder lock (lock.of_working _ (stage_eq phase)) phase nofun
    have outside := site.wiped_outside w.files
    have result := (wipe_of_ready apart ready).symm.trans outcome
    refine h.act apart phase (fun _ _ => .answered _) (setPhase_requests phase _) rfl ?_ (.inl ?_)
      nofun nofun
    · rw [result] at outside
      exact outside
    · have present := site.present_of_unwiped ready.present (congrArg Prod.snd result)
      rw [result] at present
      exact present
  | @wiped i files phase outcome =>
    have ready := h.ready_of_holder lock (lock.of_working _ (stage_eq phase)) phase nofun
    have outside := site.wiped_outside w.files
    have result := (wipe_of_ready apart ready).symm.trans outcome
    refine h.act apart phase ?_ (setPhase_requests phase _) rfl ?_ (.inr ⟨?_, .inl rfl⟩) nofun nofun
    · rintro r (_ | _ | _ | _ | asks)
      exact .remaking asks
    · rw [result] at outside
      exact outside
    · have gone := site.gone_of_wiped (congrArg Prod.snd result)
      rw [result] at gone
      exact gone
  | @remade i phase =>
    have lands := remake_lands apart h.evolved h.present_or_gone
    exact h.act apart phase (fun _ _ => .answered _) (setPhase_requests phase _) rfl lands.outside
      (.inl lands.ready.present) nofun nofun
  | @unstarted i action fault phase outcome =>
    exact h.still apart phase (fun _ _ => .answered _) (setPhase_requests phase _) rfl rfl nofun
      nofun nofun
  | @started i action course phase outcome =>
    have ready := h.ready_of_holder lock (lock.of_working _ (stage_eq phase)) phase nofun
    refine h.update phase ?_ (setPhase_requests phase _) h.evolved (.inl ready.present) nofun id
      ?_ ?_ ?_
    · rintro r (_ | _ | _ | _ | _ | _ | ⟨asks, other⟩)
      exact .running asks other
    · simp
    · rintro _ _ ⟨⟩
      simp
    · intro child member living
      rcases List.mem_append.1 member with before | new
      · exact h.within child before living
      · rw [List.mem_singleton.1 new]
        exact tool.within _ w.files course ready outcome
  | @finished i j action course written status phase ended =>
    exact h.still apart phase (fun _ _ => .answered _) (setPhase_requests phase _) rfl rfl nofun
      nofun nofun
  | @exited j written status child =>
    refine ⟨h.fits, h.evolved, h.standing, h.saveable, ?_, ?_⟩
    · intro i action k running
      simpa using h.started i action k running
    · intro child' member living
      rcases List.mem_or_eq_of_mem_set member with before | rfl
      · exact h.within child' before living
      · cases living
  | @acted j step next written child =>
    obtain ⟨i, action, running⟩ := attended j ⟨_, _, child⟩
    have ready := h.ready_of_holder lock (lock.of_working i (stage_eq running)) running nofun
    have member := List.mem_of_getElem? child
    obtain ⟨keeps, -, later⟩ := h.within _ member rfl
    obtain ⟨ready', outside⟩ := ready.step (keeps w.files ready)
    refine ⟨h.fits, ready'.evolved, .inl ready'.present, ?_, ?_, ?_⟩
    · intro k phase options at_k applying
      exact (h.saveable k phase options at_k applying).congr outside (h.evolved.liesIn apart)
    · intro k action' l running'
      simpa using h.started k action' l running'
    · intro child' member' living
      rcases List.mem_or_eq_of_mem_set member' with before | rfl
      · exact h.within child' before living
      · exact later w.files ready
  | lostHolding _ _ _ => exact absurd rfl (stays _)
  | lostInLine _ _ _ => exact absurd rfl (stays _)
  | lostRunning _ _ => exact absurd rfl (stays _)

end Step

end World

end Panel

end BuildPanel
