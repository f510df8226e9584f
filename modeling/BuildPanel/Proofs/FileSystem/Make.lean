import BuildPanel.Proofs.FileSystem.Lookup

/-!
Making directories. A directory is made where nothing lies, so that making only lets the file system
grow; what is a directory already is left alone. Paths that keep to a region are made within it, and
the outcome depends on nothing else.
-/

namespace BuildPanel

namespace FileSystem

variable {K : Place → Prop} {fs fs' : FileSystem} {p : Path} {place s : Place} {name : Name}

/-- Where a directory is to be made. -/
def vacancy (fs : FileSystem) (p : Path) : Except Fault Place :=
  match fs.lastStep p with
  | .error fault => .error fault
  | .ok (_, none) => .error .alreadyExists
  | .ok (place, some name) =>
    if fs.get (place ++ [name]) = none then .ok (place ++ [name]) else .error .alreadyExists

theorem makeDirectory_eq (fs : FileSystem) (p : Path) :
    fs.makeDirectory p = (fs.vacancy p).map fun s => fs.put s .directory := by
  unfold makeDirectory vacancy
  cases fs.lastStep p with
  | error fault => rfl
  | ok found =>
    obtain ⟨place, _ | name⟩ := found
    · rfl
    · dsimp only [bind, Except.bind]
      cases fs.get (place ++ [name]) <;> rfl

theorem vacancy_ok (h : fs.vacancy p = .ok s) :
    ∃ place name, fs.lastStep p = .ok (place, some name) ∧ s = place ++ [name] ∧
      fs.get s = none := by
  unfold vacancy at h
  split at h
  · cases h
  · cases h
  · next place name last =>
    by_cases free : fs.get (place ++ [name]) = none
    · rw [if_pos free] at h
      cases h
      exact ⟨place, name, last, rfl, free⟩
    · rw [if_neg free] at h
      cases h

theorem vacancy_congr (agree : AgreeOn K fs fs') (confined : fs.Confined K p) :
    fs'.vacancy p = fs.vacancy p := by
  unfold vacancy
  rw [lastStep_congr agree confined]
  split
  · rfl
  · rfl
  · next place name last => rw [agree.get _ (confined.lastStep last)]

theorem Confined.vacancy (confined : fs.Confined K p) (h : fs.vacancy p = .ok s) : K s := by
  obtain ⟨place, name, last, rfl, -⟩ := vacancy_ok h
  exact confined.lastStep last

theorem ne_root_of_get (h : fs.get s = none) : s ≠ [] := by
  rintro rfl
  cases h

/-- What has been made is found, and is a directory. -/
theorem find_of_vacancy (h : fs.vacancy p = .ok s) :
    (fs.put s .directory).find p = .ok s ∧ (fs.put s .directory).get s = some .directory := by
  obtain ⟨place, name, found, rfl, free⟩ := vacancy_ok h
  have root := ne_root_of_get free
  have grown : Grown (fun _ => True) fs (fs.put (place ++ [name]) .directory) := by
    refine Grown.put root trivial ?_
    rw [free]
    exact .newDirectory
  have made := get_put fs .directory (place ++ [name]) root
  rw [if_pos rfl] at made
  have named := lastStep_grows grown.grows (keepsTo_everywhere _ _ _) found
  refine ⟨find_of_walk (lastStep_ok named).1 (walk_last named made nofun) ?_, made⟩
  rw [made]
  nofun

theorem isDirectory_of_vacancy (h : fs.vacancy p = .ok s) :
    (fs.put s .directory).isDirectory p = true := by
  obtain ⟨found, made⟩ := find_of_vacancy h
  unfold isDirectory
  rw [found]
  exact decide_eq_true made

/-- Where a directory is, no directory is made, and for no other reason. -/
theorem vacancy_of_isDirectory (h : fs.isDirectory p = true) :
    fs.vacancy p = .error .alreadyExists := by
  obtain ⟨accepted, s, walks, directory⟩ := isDirectory_iff.1 h
  unfold vacancy
  rw [lastStep_eq, accepted]
  dsimp only
  cases last : p.names.getLast? with
  | none => rfl
  | some name =>
    rw [Path.steps_eq last] at walks
    obtain ⟨a, before⟩ := @walk_init fs .use _ _ _ _ _ nofun (by simp) walks
    obtain ⟨m, onward⟩ := walk_append before
    rw [onward .use _ nofun (by simp), walk_cons] at walks
    rw [before]
    dsimp only
    by_cases dots : name = Path.self ∨ name = Path.up
    · by_cases inside : fs.get a = some .directory
      · simp [inside, dots]
      · simp [stride, inside] at walks
    · by_cases inside : fs.get a = some .directory
      case neg => simp [stride, inside] at walks
      have named := Path.ne_nil_of_mem_names (List.mem_of_getLast? last)
      obtain ⟨not_self, not_up⟩ := not_or.1 dots
      have plain : dotted? a name = none := by simp [dotted?, named, not_self, not_up]
      by_cases long : nameLimit < name.length
      case pos => simp [stride, inside, plain, refusal?, long] at walks
      have taken : fs.get (a ++ [name]) ≠ none := by
        intro free
        by_cases marked : p.isMarkedDirectory <;>
          simp [stride, inside, plain, refusal?, long, free, arrive, marked] at walks
      simp [inside, dots, long, taken]

/-! ### A directory and those above it -/

/-- Makes a directory for which those above are there. -/
def makeLast (fs : FileSystem) (p : Path) : FileSystem × Except Fault Unit :=
  match fs.vacancy p with
  | .ok s => (fs.put s .directory, .ok ())
  | .error fault => (fs, if fs.isDirectory p then .ok () else .error fault)

/-- Whether directories above a path are missing. -/
def lacksAbove (fs : FileSystem) (p : Path) : Bool :=
  match fs.vacancy p with
  | .error .notFound => true
  | _ => false

theorem makeAlong_cons (fs : FileSystem) (p : Path) (above : List Path) :
    fs.makeAlong (p :: above) =
      if p = [] then (fs, .ok ())
      else if fs.lacksAbove p then
        match fs.makeAlong above with
        | (made, .error fault) => (made, .error fault)
        | (made, .ok ()) => made.makeLast p
      else fs.makeLast p := by
  rw [makeAlong]
  by_cases empty : p = []
  · rw [if_pos empty, if_pos empty]
  rw [if_neg empty, if_neg empty, makeDirectory_eq, lacksAbove, makeLast]
  cases fs.vacancy p with
  | ok s => rfl
  | error fault =>
    cases fault with
    | notFound =>
      dsimp only [Except.map]
      rw [if_pos rfl]
      obtain ⟨made, outcome⟩ := fs.makeAlong above
      cases outcome with
      | error fault => rfl
      | ok =>
        dsimp only
        rw [makeDirectory_eq, makeLast]
        cases made.vacancy p <;> rfl
    | _ => rfl

theorem makeLast_of_isDirectory (h : fs.isDirectory p = true) :
    fs.makeLast p = (fs, .ok ()) := by
  rw [makeLast, vacancy_of_isDirectory h]
  dsimp only
  rw [if_pos h]

theorem makeAlong_of_isDirectory {above : List Path} (h : fs.isDirectory p = true) :
    fs.makeAlong (p :: above) = (fs, .ok ()) := by
  rw [makeAlong_cons, lacksAbove, vacancy_of_isDirectory h, makeLast_of_isDirectory h]
  exact ite_self _

theorem isDirectory_of_makeLast (h : (fs.makeLast p).2 = .ok ()) :
    (fs.makeLast p).1.isDirectory p = true := by
  unfold makeLast at *
  cases free : fs.vacancy p with
  | ok s => exact isDirectory_of_vacancy free
  | error fault =>
    rw [free] at h
    by_cases there : fs.isDirectory p = true
    · exact there
    · simp [there] at h

/-- After every success the path names a directory, unless it is empty. -/
theorem isDirectory_of_makeAlong {above : List Path}
    (h : (fs.makeAlong (p :: above)).2 = .ok ()) :
    p = [] ∨ (fs.makeAlong (p :: above)).1.isDirectory p = true := by
  rw [makeAlong_cons] at *
  by_cases empty : p = []
  · exact .inl empty
  rw [if_neg empty] at *
  refine .inr ?_
  by_cases missing : fs.lacksAbove p
  · rw [if_pos missing] at *
    split at h
    · cases h
    · exact isDirectory_of_makeLast h
  · rw [if_neg missing] at *
    exact isDirectory_of_makeLast h

theorem makeLast_grown (confined : fs.Confined K p) : Grown K fs (fs.makeLast p).1 := by
  unfold makeLast
  cases free : fs.vacancy p with
  | ok s =>
    obtain ⟨_, _, _, _, none⟩ := vacancy_ok free
    refine Grown.put (ne_root_of_get none) (confined.vacancy free) ?_
    rw [none]
    exact .newDirectory
  | error fault => exact Grown.refl K fs

theorem makeLast_congr (agree : AgreeOn K fs fs') (confined : fs.Confined K p) :
    (fs'.makeLast p).2 = (fs.makeLast p).2 ∧
      AgreeOn K (fs.makeLast p).1 (fs'.makeLast p).1 := by
  unfold makeLast
  rw [vacancy_congr agree confined, isDirectory_congr agree confined]
  cases free : fs.vacancy p with
  | ok s =>
    obtain ⟨_, _, _, _, none⟩ := vacancy_ok free
    exact ⟨rfl, agree.put (ne_root_of_get none) .directory⟩
  | error fault => exact ⟨rfl, agree⟩

/-- Directories are made within the region that the paths keep to. -/
theorem makeAlong_grown {ps : List Path} (confined : ∀ p ∈ ps, fs.Confined K p) :
    Grown K fs (fs.makeAlong ps).1 := by
  induction ps with
  | nil => exact Grown.refl K fs
  | cons p above ih =>
    obtain ⟨first, rest⟩ := List.forall_mem_cons.1 confined
    rw [makeAlong_cons]
    by_cases empty : p = []
    · rw [if_pos empty]
      exact Grown.refl K fs
    rw [if_neg empty]
    by_cases missing : fs.lacksAbove p
    · rw [if_pos missing]
      have grown := ih rest
      split
      · next made fault outcome =>
        rw [outcome] at grown
        exact grown
      · next made outcome =>
        rw [outcome] at grown
        exact grown.trans (makeLast_grown (grown.confined first))
    · rw [if_neg missing]
      exact makeLast_grown first

/-- What is made, and whether it can be, depends on nothing but the region. -/
theorem makeAlong_congr {ps : List Path} (agree : AgreeOn K fs fs')
    (confined : ∀ p ∈ ps, fs.Confined K p) :
    (fs'.makeAlong ps).2 = (fs.makeAlong ps).2 ∧
      AgreeOn K (fs.makeAlong ps).1 (fs'.makeAlong ps).1 := by
  induction ps with
  | nil => exact ⟨rfl, agree⟩
  | cons p above ih =>
    obtain ⟨first, rest⟩ := List.forall_mem_cons.1 confined
    have lacks : fs'.lacksAbove p = fs.lacksAbove p := by
      rw [lacksAbove, lacksAbove, vacancy_congr agree first]
    rw [makeAlong_cons, makeAlong_cons, lacks]
    by_cases empty : p = []
    · rw [if_pos empty, if_pos empty]
      exact ⟨rfl, agree⟩
    rw [if_neg empty, if_neg empty]
    by_cases missing : fs.lacksAbove p
    · rw [if_pos missing, if_pos missing]
      have grown := makeAlong_grown rest
      obtain ⟨same, agree'⟩ := ih rest
      generalize fs.makeAlong above = r at *
      generalize fs'.makeAlong above = r' at *
      obtain ⟨made, outcome⟩ := r
      obtain ⟨made', outcome'⟩ := r'
      obtain rfl : outcome' = outcome := same
      cases outcome' with
      | error fault => exact ⟨rfl, agree'⟩
      | ok => exact makeLast_congr agree' (grown.confined first)
    · rw [if_neg missing, if_neg missing]
      exact makeLast_congr agree first

end FileSystem

end BuildPanel
