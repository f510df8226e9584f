import Mathlib.Tactic.SplitIfs
import BuildPanel.Proofs.FileSystem.Make

/-!
Removing directories. What is cleared or pruned is gone and nothing else; a directory that has been
cleared can be removed. Removing reaches no further than to the entry that its path names, and what
is below it; and unless it fails for another reason than that nothing is found, the path names no
directory any more.
-/

namespace BuildPanel

namespace FileSystem

variable {K : Place → Prop} {fs fs' : FileSystem} {p : Path} {s place : Place} {name : Name}

theorem clear_elsewhere (fs : FileSystem) (s : Place) :
    AgreeOn (fun q => ¬ s <+: q) fs (fs.clear s) := by
  refine ⟨?_, rfl⟩
  intro q outside
  rw [get_clear, if_neg]
  exact fun h => outside h.1

theorem prune_elsewhere (fs : FileSystem) (root : s ≠ []) :
    AgreeOn (fun q => ¬ s <+: q) fs (fs.prune s) := by
  refine ⟨?_, rfl⟩
  intro q outside
  rw [get_prune fs q root, if_neg outside]

theorem AgreeOn.clear (agree : AgreeOn K fs fs') (s : Place) :
    AgreeOn K (fs.clear s) (fs'.clear s) := by
  refine ⟨?_, agree.here⟩
  intro q hq
  rw [get_clear, get_clear, agree.get q hq]

theorem AgreeOn.prune (agree : AgreeOn K fs fs') (root : s ≠ []) :
    AgreeOn K (fs.prune s) (fs'.prune s) := by
  refine ⟨?_, agree.here⟩
  intro q hq
  rw [get_prune fs q root, get_prune fs' q root, agree.get q hq]

theorem lookup_eq_none_iff {entries : List (Place × Entry)} :
    lookup s entries = none ↔ ∀ m ∈ entries, m.1 ≠ s := by
  induction entries with
  | nil => simp [lookup]
  | cons m rest ih =>
    obtain ⟨q, e⟩ := m
    by_cases same : q = s
    · simp [lookup, same]
    · simp [lookup, same, ih]

theorem nameIn?_eq_some {q : Place} : nameIn? s q = some name ↔ q = s ++ [name] := by
  unfold nameIn?
  cases last : q.getLast? with
  | none =>
    obtain rfl : q = [] := List.getLast?_eq_none_iff.1 last
    simp
  | some other =>
    obtain ⟨init, rfl⟩ := List.getLast?_eq_some_iff.1 last
    simp

/-- Nothing is listed in a directory if and only if no name in it is taken. -/
theorem list_eq_nil_iff : fs.list s = [] ↔ ∀ name, fs.get (s ++ [name]) = none := by
  have sorted : fs.list s = [] ↔ fs.entries.filterMap (fun m => nameIn? s m.1) = [] := by
    rw [list, ← List.length_eq_zero_iff, List.length_mergeSort, List.length_eq_zero_iff]
  rw [sorted, List.filterMap_eq_nil_iff]
  constructor
  · intro unlisted name
    rw [get_of_ne_root fs (by simp), lookup_eq_none_iff]
    intro m hm same
    have listed := nameIn?_eq_some.2 same
    rw [unlisted m hm] at listed
    cases listed
  · intro free m hm
    refine Option.eq_none_iff_forall_ne_some.2 fun name listed => ?_
    have none_ := free name
    rw [get_of_ne_root fs (by simp), lookup_eq_none_iff] at none_
    exact none_ m hm (nameIn?_eq_some.1 listed)

/-- Nothing is listed in a directory that has been cleared. -/
theorem list_clear (fs : FileSystem) (s : Place) : (fs.clear s).list s = [] := by
  refine list_eq_nil_iff.2 fun name => ?_
  rw [get_clear, if_pos (by simp)]

theorem findEntry_of_walk (accepted : accept p = .ok ())
    (walks : fs.walk .entry linkLimit (fs.origin p) p.steps = .ok (.present s))
    (there : fs.get s ≠ none) : fs.findEntry p = .ok s := by
  have resolved : fs.resolve .entry p = .ok (.present s) := by
    refine resolve_eq_ok.2 ⟨accepted, walks, ?_⟩
    rintro _ ⟨⟩
    exact there
  unfold findEntry
  rw [resolved]
  rfl

theorem removeDirectory_of_empty (named : fs.lastStep p = .ok (place, some name))
    (there : fs.get (place ++ [name]) = some .directory) (empty : fs.list (place ++ [name]) = []) :
    fs.removeDirectory p = .ok (fs.prune (place ++ [name])) := by
  simp [removeDirectory, named, there, empty, bind, Except.bind, pure, Except.pure]

theorem removeDirectory_of_link {target : Path} (named : fs.lastStep p = .ok (place, some name))
    (there : fs.get (place ++ [name]) = some (.link target)) :
    fs.removeDirectory p = .error .notDirectory := by
  simp [removeDirectory, named, there, bind, Except.bind, throw, throwThe, MonadExceptOf.throw]

/-- Why a directory is not removed by a path whose last name is no name of an entry. -/
def refusal (p : Path) : Fault :=
  match p.names.getLast? with
  | none => .busy
  | some name => if name = Path.self then .invalidArgument else .notEmpty

theorem removeDirectory_of_none (named : fs.lastStep p = .ok (place, none)) :
    fs.removeDirectory p = .error (refusal p) := by
  unfold removeDirectory refusal
  rw [named]
  dsimp only [bind, Except.bind]
  cases p.names.getLast? <;> rfl

theorem refusal_ne_notFound (p : Path) : refusal p ≠ .notFound := by
  unfold refusal
  split
  · nofun
  · split_ifs <;> nofun

/-! ### How far removing reaches -/

section Kept

variable (kept : ∀ q e, fs.get q = some e → fs'.get q = some e)

include kept

/-- A walk strides over what it meets whatever else there is. -/
theorem stride_of_kept (kind : Purpose) (place : Place) (name : Name) (rest : List Name) :
    match fs.stride kind place name rest with
    | .fails _ | .ends (.absent _) => True
    | onward => fs'.stride kind place name rest = onward := by
  unfold stride
  by_cases directory : fs.get place = some .directory
  case neg => simp [directory]
  simp only [directory, kept place _ directory, ne_eq, not_true_eq_false, if_false]
  cases dotted? place name with
  | some next => rfl
  | none =>
    dsimp only
    cases refusal? kind name rest with
    | some fault => trivial
    | none =>
      dsimp only
      cases entry : fs.get (place ++ [name]) with
      | none => by_cases last : rest = [] <;> simp [arrive, last]
      | some e =>
        rw [kept _ e entry]
        cases e with
        | link target => by_cases last : rest = [] ∧ kind = .entry <;> simp [arrive, last]
        | _ => rfl

/-- A walk that has led somewhere leads there as well if there is more to be met. -/
theorem walk_of_kept {kind : Purpose} {links : Nat} {start : Place} {names : List Name}
    (walks : fs.walk kind links start names = .ok (.present s)) :
    fs'.walk kind links start names = .ok (.present s) := by
  have leads := leads_of_walk walks
  refine Leads.walk ?_
  clear walks
  generalize found : Target.present s = target at leads ⊢
  induction leads with
  | nil links place => exact .nil links place
  | @ends links place name rest target strides =>
    have step := stride_of_kept kept kind place name rest
    rw [strides, ← found] at step
    exact .ends (found ▸ step)
  | @goes links place next name rest target strides onward ih =>
    have step := stride_of_kept kept kind place name rest
    rw [strides] at step
    exact .goes step (ih found)
  | @follows fewer place next name rest names target strides onward ih =>
    have step := stride_of_kept kept kind place name rest
    rw [strides] at step
    exact .follows step (ih found)

end Kept

theorem findEntry_eq_ok : fs.findEntry p = .ok s ↔
    accept p = .ok () ∧ fs.walk .entry linkLimit (fs.origin p) p.steps = .ok (.present s) ∧
      fs.get s ≠ none := by
  constructor
  · intro h
    unfold findEntry at h
    cases found : fs.resolve .entry p with
    | error fault =>
      rw [found] at h
      cases h
    | ok target =>
      rw [found] at h
      cases target with
      | absent place => cases h
      | present place =>
        cases h
        obtain ⟨accepted, walks, there⟩ := resolve_eq_ok.1 found
        exact ⟨accepted, walks, there s rfl⟩
  · rintro ⟨accepted, walks, there⟩
    exact findEntry_of_walk accepted walks there

/-- What is removed as a directory is the entry that the path names. -/
theorem removeDirectory_ok (h : fs.removeDirectory p = .ok fs') :
    ∃ s, s ≠ [] ∧ fs.findEntry p = .ok s ∧ fs' = fs.prune s := by
  unfold removeDirectory at h
  cases last : fs.lastStep p with
  | error fault =>
    rw [last] at h
    cases h
  | ok found =>
    rw [last] at h
    obtain ⟨place, _ | name⟩ := found
    · dsimp only [bind, Except.bind] at h
      split at h <;> cases h
    · cases lies : fs.get (place ++ [name]) with
      | none => simp [lies, bind, Except.bind, throw, throwThe, MonadExceptOf.throw] at h
      | some e =>
        cases e with
        | directory =>
          refine ⟨place ++ [name], by simp, ?_, ?_⟩
          · refine findEntry_eq_ok.2 ⟨(lastStep_ok last).1, walk_last last lies nofun, ?_⟩
            rw [lies]
            nofun
          · by_cases empty : fs.list (place ++ [name]) = []
            · simp only [bind, Except.bind, lies, empty] at h
              exact (Except.ok.inj h).symm
            · simp [lies, empty, bind, Except.bind, throw, throwThe, MonadExceptOf.throw] at h
        | _ => simp [lies, bind, Except.bind, throw, throwThe, MonadExceptOf.throw] at h

/-- What lies somewhere after something has been cleared or pruned has lain there before. -/
theorem get_of_get_clear {q : Place} {e : Entry} (lies : (fs.clear s).get q = some e) :
    fs.get q = some e := by
  rw [get_clear] at lies
  split_ifs at lies
  exact lies

theorem get_of_get_prune {q : Place} {e : Entry} (root : s ≠ [])
    (lies : (fs.prune s).get q = some e) : fs.get q = some e := by
  rw [get_prune fs q root] at lies
  split_ifs at lies
  exact lies

/-- With more to be met, a path leads to the same entry. -/
theorem findEntry_of_kept (kept : ∀ q e, fs.get q = some e → fs'.get q = some e)
    (here : fs'.here = fs.here) (found : fs.findEntry p = .ok s) : fs'.findEntry p = .ok s := by
  obtain ⟨accepted, walks, there⟩ := findEntry_eq_ok.1 found
  obtain ⟨e, lies⟩ := Option.ne_none_iff_exists'.1 there
  refine findEntry_eq_ok.2 ⟨accepted, ?_, ?_⟩
  · rw [origin_congr here]
    exact walk_of_kept kept walks
  · rw [kept s e lies]
    nofun

/-- What becomes of the files, and of the attempt, when all at a path is to be removed. -/
inductive Removal (fs : FileSystem) (p : Path) : FileSystem → Except Fault Unit → Prop where
  | missing {fault : Fault} (found : fs.findEntry p = .error fault) :
      Removal fs p fs (.error fault)
  | file (s : Place) (found : fs.findEntry p = .ok s) : Removal fs p fs (.error .notDirectory)
  /-- A link goes alone. -/
  | link {s : Place} {target : Path} (found : fs.findEntry p = .ok s)
      (lies : fs.get s = some (.link target)) : Removal fs p (fs.prune s) (.ok ())
  | directory {s : Place} (found : fs.findEntry p = .ok s) (lies : fs.get s = some .directory)
      (root : s ≠ []) (again : (fs.clear s).findEntry p = .ok s) :
      Removal fs p ((fs.clear s).prune s) (.ok ())
  /-- A directory that cannot be removed itself has been emptied by then. -/
  | emptied {s : Place} {fault : Fault} (found : fs.findEntry p = .ok s)
      (lies : fs.get s = some .directory)
      (refused : (fs.clear s).removeDirectory p = .error fault) :
      Removal fs p (fs.clear s) (.error fault)

theorem removal (fs : FileSystem) (p : Path) :
    Removal fs p (fs.removeAll p).1 (fs.removeAll p).2 := by
  unfold removeAll
  cases found : fs.findEntry p with
  | error fault => exact .missing found
  | ok s =>
    dsimp only
    cases lies : fs.get s with
    | none => exact absurd lies (findEntry_eq_ok.1 found).2.2
    | some e =>
      cases e with
      | file contents runnable => exact .file s found
      | link target => exact .link found lies
      | directory =>
        dsimp only
        cases removed : (fs.clear s).removeDirectory p with
        | error fault => exact .emptied found lies removed
        | ok fs' =>
          obtain ⟨s', root, again, rfl⟩ := removeDirectory_ok removed
          have before := findEntry_of_kept (fun q e => get_of_get_clear) rfl again
          obtain rfl : s = s' := Except.ok.inj (found.symm.trans before)
          exact .directory found lies root again

theorem ne_root_of_link {target : Path} (lies : fs.get s = some (.link target)) : s ≠ [] := by
  rintro rfl
  cases lies

namespace Removal

variable {outcome : Except Fault Unit}

/-- Removing reaches no further than to the entry that the path names and what is below it. -/
theorem elsewhere (h : Removal fs p fs' outcome) :
    AgreeOn (fun q => ∀ s, fs.findEntry p = .ok s → ¬ s <+: q) fs fs' := by
  cases h with
  | missing => exact AgreeOn.refl _ fs
  | file => exact AgreeOn.refl _ fs
  | @link s _ found lies =>
    exact (prune_elsewhere fs (ne_root_of_link lies)).mono fun q h => h s found
  | @directory s found _ root _ =>
    have cleared := (clear_elsewhere fs s).trans (prune_elsewhere _ root)
    exact cleared.mono fun q h => h s found
  | @emptied s _ found _ _ => exact (clear_elsewhere fs s).mono fun q h => h s found

/-- Removing adds nothing. -/
theorem get_of_get (h : Removal fs p fs' outcome) {q : Place} {e : Entry}
    (lies : fs'.get q = some e) : fs.get q = some e := by
  cases h with
  | missing => exact lies
  | file => exact lies
  | link found link => exact get_of_get_prune (ne_root_of_link link) lies
  | directory found directory root again => exact get_of_get_clear (get_of_get_prune root lies)
  | emptied found directory refused => exact get_of_get_clear lies

end Removal

/-! ### What is gone -/

/-- Only at a link does it make a difference that the entry itself is wanted. -/
theorem stride_entry (place : Place) (name : Name) (rest : List Name) :
    fs.stride .entry place name rest = fs.stride .use place name rest ∨
      ∃ s, fs.stride .entry place name rest = .ends (.present s) ∧ fs.get s ≠ none := by
  have refused : refusal? .entry name rest = refusal? .use name rest := rfl
  unfold stride
  rw [refused]
  by_cases directory : fs.get place = some .directory
  case neg => exact .inl (by simp [directory])
  simp only [directory, ne_eq, not_true_eq_false, if_false]
  cases dotted? place name with
  | some next => exact .inl rfl
  | none =>
    dsimp only
    cases refusal? .use name rest with
    | some fault => exact .inl rfl
    | none =>
      dsimp only
      cases lies : fs.get (place ++ [name]) with
      | none => exact .inl rfl
      | some e =>
        cases e with
        | link target =>
          by_cases last : rest = []
          · exact .inr ⟨place ++ [name], by simp [arrive, last], by simp [lies]⟩
          · exact .inl (by simp [arrive, last])
        | _ => exact .inl rfl

/-- Where something is met with links followed, there is an entry to be met without. -/
theorem walk_entry_of_use {links : Nat} {start : Place} {names : List Name}
    (walks : fs.walk .use links start names = .ok (.present s)) (lies : fs.get s ≠ none) :
    ∃ t, fs.walk .entry links start names = .ok (.present t) ∧ fs.get t ≠ none := by
  refine walk_use_induction (motive := fun links start names =>
    ∃ t, fs.walk .entry links start names = .ok (.present t) ∧ fs.get t ≠ none) ?_ ?_ ?_ walks
  · intro links
    exact ⟨s, walk_nil links s, lies⟩
  · rintro links place next name rest strides ⟨t, walks, there⟩
    rcases @stride_entry fs place name rest with same | ⟨t, ends_, there⟩
    · exact ⟨t, by rw [walk_cons, same, strides]; exact walks, there⟩
    · exact ⟨t, by rw [walk_cons, ends_], there⟩
  · rintro fewer place next name rest names strides ⟨t, walks, there⟩
    rcases @stride_entry fs place name rest with same | ⟨t, ends_, there⟩
    · exact ⟨t, by rw [walk_cons, same, strides]; exact walks, there⟩
    · exact ⟨t, by rw [walk_cons, ends_], there⟩

theorem findEntry_of_isDirectory (there : fs.isDirectory p = true) :
    ∃ t, fs.findEntry p = .ok t := by
  obtain ⟨accepted, s, walks, directory⟩ := isDirectory_iff.1 there
  obtain ⟨t, walks', lies⟩ := walk_entry_of_use walks (by rw [directory]; nofun)
  exact ⟨t, findEntry_of_walk accepted walks' lies⟩

theorem isDirectory_prune (root : s ≠ []) (found : fs.findEntry p = .ok s) :
    (fs.prune s).isDirectory p = false := by
  refine Bool.eq_false_iff.2 fun there => ?_
  obtain ⟨t, again⟩ := findEntry_of_isDirectory there
  have before := findEntry_of_kept (fun q e => get_of_get_prune root) rfl again
  obtain rfl : s = t := Except.ok.inj (found.symm.trans before)
  obtain ⟨-, -, lies⟩ := findEntry_eq_ok.1 again
  rw [get_prune fs s root, if_pos List.prefix_rfl] at lies
  exact lies rfl

theorem isDirectory_of_removeDirectory_notFound
    (missing : fs.removeDirectory p = .error .notFound) : fs.isDirectory p = false := by
  refine Bool.eq_false_iff.2 fun there => ?_
  have taken := vacancy_of_isDirectory there
  unfold vacancy at taken
  cases last : fs.lastStep p with
  | error fault =>
    rw [last] at taken
    simp only [removeDirectory, last, bind, Except.bind] at missing
    cases taken
    cases missing
  | ok found =>
    obtain ⟨place, _ | name⟩ := found
    · rw [removeDirectory_of_none last] at missing
      exact refusal_ne_notFound p (Except.error.inj missing)
    · rw [last] at taken
      unfold removeDirectory at missing
      rw [last] at missing
      dsimp only [bind, Except.bind] at missing taken
      split at missing
      · next free =>
        rw [if_pos free] at taken
        cases taken
      · split_ifs at missing <;> cases missing
      · cases missing

/-- After a removal that has succeeded, or has found nothing, the path names no directory. -/
theorem Removal.isDirectory_eq_false {outcome : Except Fault Unit}
    (h : Removal fs p fs' outcome) (gone : outcome = .ok () ∨ outcome = .error .notFound) :
    fs'.isDirectory p = false := by
  cases h with
  | missing found =>
    refine Bool.eq_false_iff.2 fun there => ?_
    obtain ⟨t, found'⟩ := findEntry_of_isDirectory there
    rw [found] at found'
    cases found'
  | file => rcases gone with gone | gone <;> cases gone
  | link found lies => exact isDirectory_prune (ne_root_of_link lies) found
  | directory found lies root again => exact isDirectory_prune root again
  | emptied found lies refused =>
    rcases gone with gone | gone
    · cases gone
    · obtain rfl := Except.error.inj gone
      exact isDirectory_of_removeDirectory_notFound refused

end FileSystem

end BuildPanel
