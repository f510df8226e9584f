import BuildPanel.Proofs.BuildDirectory.Renewal
import BuildPanel.Proofs.Panel.Turns
import BuildPanel.Proofs.Settings.Saving

/-!
What actions do to the files. The settings lie outside the build directory, and the build tool works
in the build directory alone. Then an action changes nothing outside the directory, and what it does
inside, and its answer, depend on nothing but what is inside: saving options and acting in the
directory do not meet.
-/

namespace BuildPanel

open FileSystem BuildDirectory

variable {base fs fs' : FileSystem} {path : Path}

/-- A course that works in the build directory alone: each of its steps depends on nothing but
what is inside, changes nothing outside and leaves the directory itself in place. `Fit` says which
files the course can meet. -/
def Course.Within (site : Site base path) (Fit : FileSystem → Prop) : Course → Prop
  | .exit _ => True
  | .act step next =>
    (∀ fs, Fit fs →
      AgreeOn (fun q => site.Outside q ∨ q = site.entry ∨ q = site.place) fs (step fs).2) ∧
    (∀ fs fs', Fit fs → Fit fs' → AgreeOn site.Inside fs fs' →
      (step fs').1 = (step fs).1 ∧ AgreeOn site.Inside (step fs).2 (step fs').2 ∧
        next fs' = next fs) ∧
    ∀ fs, Fit fs → (next fs).Within site Fit

namespace Panel

variable {p : Panel}

/-- The files after some option sets have been saved. -/
def saveAll (p : Panel) (fs : FileSystem) (saved : List OptionSet) : FileSystem :=
  saved.foldl (fun fs options => (Settings.save fs p.configuration.settings options).1) fs

/-- Outside the build directory nothing has happened but that options have been saved. -/
def Evolved (p : Panel) (site : Site base path) (fs : FileSystem) : Prop :=
  ∃ saved, AgreeOn site.Outside (p.saveAll base saved) fs

/-- Nothing else has happened outside, and the build directory is there. -/
structure Ready (p : Panel) (site : Site base path) (fs : FileSystem) : Prop where
  evolved : p.Evolved site fs
  present : site.Present fs

/-- The build tool is a function of its arguments and of what is in the build directory, and works
in the build directory alone. -/
structure Contained (p : Panel) (site : Site base path) : Prop where
  start_congr : ∀ arguments fs fs', p.Ready site fs → p.Ready site fs' →
    AgreeOn site.Inside fs fs' → p.start fs' arguments = p.start fs arguments
  within : ∀ arguments fs course, p.Ready site fs → p.start fs arguments = .ok course →
    course.Within site (p.Ready site)

/-! ### Saving outside the build directory -/

section Saving

variable {site : Site base path}

theorem evolved_base (p : Panel) (site : Site base path) : p.Evolved site base :=
  ⟨[], AgreeOn.refl _ _⟩

theorem ready_base (p : Panel) (site : Site base path) : p.Ready site base :=
  ⟨evolved_base p site, site.present_base⟩

theorem Evolved.of_agree (h : p.Evolved site fs) (agree : AgreeOn site.Outside fs fs') :
    p.Evolved site fs' := by
  obtain ⟨saved, before⟩ := h
  exact ⟨saved, before.trans agree⟩

theorem saveAll_grown {K : Place → Prop} (apart : Settings.LiesIn fs K p.configuration.settings)
    (saved : List OptionSet) : Grown K fs (p.saveAll fs saved) := by
  induction saved generalizing fs with
  | nil => exact Grown.refl K fs
  | cons options rest ih =>
    have grown := Settings.save_grown apart options
    exact grown.trans (ih (apart.of_growsOn (grown.grows.mono fun _ _ => trivial)))

variable (apart : Settings.LiesIn base site.Outside p.configuration.settings)

include apart

theorem Evolved.grows (h : p.Evolved site fs) : GrowsOn site.Outside base fs := by
  obtain ⟨saved, agree⟩ := h
  exact ((saveAll_grown apart saved).grows.mono fun _ _ => trivial).trans agree.growsOn

theorem Evolved.liesIn (h : p.Evolved site fs) :
    Settings.LiesIn fs site.Outside p.configuration.settings :=
  Settings.LiesIn.of_growsOn (h.grows apart) apart

theorem Evolved.save (h : p.Evolved site fs) (options : OptionSet) :
    p.Evolved site (Settings.save fs p.configuration.settings options).1 := by
  obtain ⟨saved, agree⟩ := h
  refine ⟨saved ++ [options], ?_⟩
  have lies := (Evolved.liesIn apart ⟨saved, AgreeOn.refl _ (p.saveAll base saved)⟩)
  rw [saveAll, List.foldl_append]
  exact (Settings.save_congr agree lies options).2

theorem Evolved.save_inside (h : p.Evolved site fs) (options : OptionSet) :
    AgreeOn site.Inside fs (Settings.save fs p.configuration.settings options).1 :=
  (Settings.save_grown (h.liesIn apart) options).elsewhere.mono fun _ inside outside =>
    outside inside

theorem Ready.save (h : p.Ready site fs) (options : OptionSet) :
    p.Ready site (Settings.save fs p.configuration.settings options).1 :=
  ⟨h.evolved.save apart options, h.present.of_inside (h.evolved.save_inside apart options)⟩

end Saving

/-! ### Acting in the build directory -/

/-- What comes of an action that is done to files: the directory is there, and nothing outside has
changed. -/
structure Lands (p : Panel) (site : Site base path) (fs : FileSystem)
    (result : FileSystem × Response) : Prop where
  ready : p.Ready site result.1
  outside : AgreeOn site.Outside fs result.1

/-- Two actions come to the same answer and leave the same in the build directory. -/
structure Alike (site : Site base path) (result result' : FileSystem × Response) : Prop where
  answer : result'.2 = result.2
  inside : AgreeOn site.Inside result.1 result'.1

section Acting

variable {site : Site base path}

theorem Evolved.landed (h : p.Evolved site fs) {result : FileSystem × Response}
    (outside : AgreeOn site.Outside fs result.1) (present : site.Present result.1) :
    p.Lands site fs result :=
  ⟨⟨h.of_agree outside, present⟩, outside⟩

theorem Lands.refl (h : p.Ready site fs) (response : Response) :
    p.Lands site fs (fs, response) :=
  ⟨h, AgreeOn.refl _ _⟩

/-- A step of a course that works in the directory alone leaves it there. -/
theorem Ready.step (h : p.Ready site fs)
    (agree : AgreeOn (fun q => site.Outside q ∨ q = site.entry ∨ q = site.place) fs fs') :
    p.Ready site fs' ∧ AgreeOn site.Outside fs fs' := by
  have outside : AgreeOn site.Outside fs fs' := agree.mono fun _ => .inl
  refine ⟨⟨h.evolved.of_agree outside, ?_⟩, outside⟩
  exact h.present.congr (agree.get _ (.inr (.inl rfl))) (agree.get _ (.inr (.inr rfl)))

theorem run_lands {course : Course} (within : course.Within site (p.Ready site))
    (h : p.Ready site fs) :
    p.Ready site (course.run fs).2.1 ∧ AgreeOn site.Outside fs (course.run fs).2.1 := by
  induction course generalizing fs with
  | exit status => exact ⟨h, AgreeOn.refl _ _⟩
  | act step next ih =>
    obtain ⟨keeps, congr, later⟩ := within
    obtain ⟨ready, outside⟩ := h.step (keeps fs h)
    obtain ⟨ready', outside'⟩ := ih fs (later fs h) ready
    exact ⟨ready', outside.trans outside'⟩

theorem run_congr {course : Course} (within : course.Within site (p.Ready site))
    (h : p.Ready site fs) (h' : p.Ready site fs') (agree : AgreeOn site.Inside fs fs') :
    (course.run fs').1 = (course.run fs).1 ∧ (course.run fs').2.2 = (course.run fs).2.2 ∧
      AgreeOn site.Inside (course.run fs).2.1 (course.run fs').2.1 := by
  induction course generalizing fs fs' with
  | exit status => exact ⟨rfl, rfl, agree⟩
  | act step next ih =>
    obtain ⟨keeps, congr, later⟩ := within
    obtain ⟨written, inside, same⟩ := congr fs fs' h h' agree
    have ready := (h.step (keeps fs h)).1
    have ready' := (h'.step (keeps fs' h')).1
    obtain ⟨written', status, inside'⟩ := ih fs (later fs h) ready ready' inside
    refine ⟨?_, ?_, ?_⟩
    · simp only [Course.run, written, same, written']
    · simp only [Course.run, same, status]
    · simp only [Course.run, same]
      exact inside'

theorem launch_lands (tool : p.Contained site) (h : p.Ready site fs) (action : Action) :
    p.Lands site fs (p.launch fs action) := by
  unfold launch
  cases started : p.start fs (p.arguments action) with
  | error fault => exact Lands.refl h _
  | ok course =>
    obtain ⟨ready, outside⟩ := run_lands (tool.within _ fs course h started) h
    exact ⟨ready, outside⟩

theorem launch_congr (tool : p.Contained site) (h : p.Ready site fs) (h' : p.Ready site fs')
    (agree : AgreeOn site.Inside fs fs') (action : Action) :
    Alike site (p.launch fs action) (p.launch fs' action) := by
  unfold launch
  rw [tool.start_congr _ fs fs' h h' agree]
  cases started : p.start fs (p.arguments action) with
  | error fault => exact ⟨rfl, agree⟩
  | ok course =>
    obtain ⟨written, status, inside⟩ :=
      run_congr (tool.within _ fs course h started) h h' agree
    dsimp only
    rw [written, status]
    exact ⟨rfl, inside⟩

end Acting

section Cleaning

variable {site : Site base p.configuration.build}
  (apart : Settings.LiesIn base site.Outside p.configuration.settings)

include apart

theorem ensure_of_ready (h : p.Ready site fs) :
    ensure fs p.configuration.build = (fs, .ok ()) :=
  site.ensure_of_present (h.evolved.grows apart) h.present

theorem remake_of_ready (h : p.Ready site fs) : p.remake fs = (fs, cleanAnswer (.ok ())) := by
  rw [remake, ensure_of_ready apart h]

theorem remake_of_gone (h : p.Evolved site fs) (gone : site.Gone fs) :
    p.remake fs = (fs.put site.entry .directory, cleanAnswer (.ok ())) := by
  rw [remake, site.ensure_of_gone (h.grows apart) gone]

/-- The files that making the directory can meet: the directory is there, or it has been wiped. -/
theorem remake_lands (h : p.Evolved site fs)
    (standing : site.Present fs ∨ site.Gone fs) : p.Lands site fs (p.remake fs) := by
  rcases standing with present | gone
  · rw [remake_of_ready apart ⟨h, present⟩]
    exact Lands.refl ⟨h, present⟩ _
  · rw [remake_of_gone apart h gone]
    exact h.landed (Site.put_entry_outside gone) (Site.put_entry_present gone)

theorem remake_congr (h : p.Evolved site fs) (h' : p.Evolved site fs')
    (agree : AgreeOn site.Inside fs fs')
    (standing : site.Present fs ∨ site.Gone fs) :
    Alike site (p.remake fs) (p.remake fs') := by
  rcases standing with present | gone
  · rw [remake_of_ready apart ⟨h, present⟩, remake_of_ready apart ⟨h', present.of_inside agree⟩]
    exact ⟨rfl, agree⟩
  · rw [remake_of_gone apart h gone, remake_of_gone apart h' (gone.of_inside agree)]
    exact ⟨rfl, agree.put gone.ne_root .directory⟩

/-- A directory that has been made need not be made again. -/
theorem remake_again (h : p.Evolved site fs)
    (standing : site.Present fs ∨ site.Gone fs) :
    p.remake (p.remake fs).1 = p.remake fs := by
  have made := remake_of_ready apart (remake_lands apart h standing).ready
  have answer : (p.remake fs).2 = cleanAnswer (.ok ()) := by
    rcases standing with present | gone
    · rw [remake_of_ready apart ⟨h, present⟩]
    · rw [remake_of_gone apart h gone]
  rw [made, ← answer]

theorem wipe_of_ready (h : p.Ready site fs) :
    wipe fs p.configuration.build = site.wiped fs :=
  site.wipe_eq (h.evolved.grows apart) h.present

theorem empty_eq (h : p.Ready site fs) :
    p.empty fs =
      match (site.wiped fs).2 with
      | .error e => ((site.wiped fs).1, cleanAnswer (.error e))
      | .ok () => p.remake (site.wiped fs).1 := by
  rw [empty, wipe_of_ready apart h]
  cases site.wiped fs with
  | mk files outcome => cases outcome <;> rfl

theorem empty_lands (h : p.Ready site fs) : p.Lands site fs (p.empty fs) := by
  have outside := site.wiped_outside fs
  have evolved := h.evolved.of_agree outside
  rw [empty_eq apart h]
  cases outcome : (site.wiped fs).2 with
  | error e => exact h.evolved.landed outside (site.present_of_unwiped h.present outcome)
  | ok =>
    have lands := remake_lands apart evolved (.inr (site.gone_of_wiped outcome))
    exact ⟨lands.ready, outside.trans lands.outside⟩

theorem empty_congr (h : p.Ready site fs) (h' : p.Ready site fs')
    (agree : AgreeOn site.Inside fs fs') : Alike site (p.empty fs) (p.empty fs') := by
  obtain ⟨same, inside⟩ := site.wiped_congr agree
  rw [empty_eq apart h, empty_eq apart h', same]
  cases outcome : (site.wiped fs).2 with
  | error e => exact ⟨rfl, inside⟩
  | ok =>
    exact remake_congr apart (h.evolved.of_agree (site.wiped_outside fs))
      (h'.evolved.of_agree (site.wiped_outside fs')) inside (.inr (site.gone_of_wiped outcome))

/-- An action finds the directory there and goes on. -/
theorem perform_of_ready (h : p.Ready site fs) (action : Action) :
    p.perform fs action =
      match action with
      | .clean => p.empty fs
      | action => p.launch fs action := by
  unfold perform
  rw [ensure_of_ready apart h]
  cases action <;> rfl

variable (tool : p.Contained site)

include tool

theorem perform_lands (h : p.Ready site fs) (action : Action) :
    p.Lands site fs (p.perform fs action) := by
  rw [perform_of_ready apart h]
  cases action with
  | clean => exact empty_lands apart h
  | apply options => exact launch_lands tool h _
  | build patience => exact launch_lands tool h _

theorem perform_congr (h : p.Ready site fs) (h' : p.Ready site fs')
    (agree : AgreeOn site.Inside fs fs') (action : Action) :
    Alike site (p.perform fs action) (p.perform fs' action) := by
  rw [perform_of_ready apart h, perform_of_ready apart h']
  cases action with
  | clean => exact empty_congr apart h h' agree
  | apply options => exact launch_congr tool h h' agree _
  | build patience => exact launch_congr tool h h' agree _

end Cleaning

end Panel

end BuildPanel
