import BuildPanel.Proofs.FileSystem.Lookup

/-!
What was written is read. A file that is opened for writing lies at the end of a walk that meets
directories and links only; putting the file there changes none of these, so that the same path
leads to the file afterwards, links followed. Writing to a path that keeps to a region changes
nothing elsewhere, and depends on nothing else.
-/

namespace BuildPanel

namespace FileSystem

variable {K : Place → Prop} {fs fs' : FileSystem} {p : Path} {s : Place}

/-- Nothing but a file lies at a place. -/
def MayHoldFile (fs : FileSystem) (s : Place) : Prop :=
  fs.get s = none ∨ ∃ contents runnable, fs.get s = some (.file contents runnable)

namespace MayHoldFile

theorem ne_of_directory (h : fs.MayHoldFile s) {q : Place}
    (directory : fs.get q = some .directory) : q ≠ s := by
  rintro rfl
  rcases h with h | ⟨contents, runnable, h⟩
  · rw [directory] at h
    cases h
  · rw [directory] at h
    cases h

theorem ne_root (h : fs.MayHoldFile s) : s ≠ [] :=
  (h.ne_of_directory (get_root fs)).symm

end MayHoldFile

theorem refusal?_of_make {kind : Purpose} {name : Name} {rest : List Name}
    (fine : refusal? .make name rest = none) : refusal? kind name rest = none := by
  unfold refusal? at *
  split_ifs at * <;> simp_all

/-- After a file has been put at a place, a walk takes the strides by which the place was found. -/
theorem stride_put (h : fs.MayHoldFile s) (contents : List UInt8) (runnable : Bool)
    {kind : Purpose} (through : kind ≠ .entry) (place : Place) (name : Name) (rest : List Name) :
    match fs.stride .make place name rest with
    | .fails _ => True
    | .ends target => target.place = s →
      (fs.put s (.file contents runnable)).stride kind place name rest = .goes s ∧ rest = []
    | onward => (fs.put s (.file contents runnable)).stride kind place name rest = onward := by
  by_cases directory : fs.get place = some .directory
  case neg => simp [stride, directory]
  have still : (fs.put s (.file contents runnable)).get place = some .directory := by
    rw [get_put fs _ _ h.ne_root, if_neg (h.ne_of_directory directory), directory]
  cases dots : dotted? place name with
  | some next => simp [stride, directory, still, dots]
  | none =>
    cases make : refusal? .make name rest with
    | some fault => simp [stride, directory, dots, make]
    | none =>
      have fine := @refusal?_of_make kind _ _ make
      have next := get_put fs (.file contents runnable) (place ++ [name]) h.ne_root
      simp only [stride, directory, still, dots, make, fine, next, ne_eq, not_true_eq_false,
        if_false]
      by_cases found : place ++ [name] = s
      · rw [if_pos found, found]
        rcases h with free | ⟨old, mode, file⟩
        · rw [free]
          by_cases last : rest = [] <;> simp [arrive, last, found]
        · rw [file]
          simp [arrive, found]
      · rw [if_neg found]
        cases fs.get (place ++ [name]) with
        | none => by_cases last : rest = [] <;> simp [arrive, last, Target.place, found]
        | some e => cases e <;> simp [arrive, through]

/-- After a file has been put at the end of a walk, the walk leads to the file. -/
theorem walk_put (h : fs.MayHoldFile s) (contents : List UInt8) (runnable : Bool) (kind : Purpose)
    (through : kind ≠ .entry) {links : Nat} {place : Place} {names : List Name} {target : Target}
    (found : fs.walk .make links place names = .ok target) (there : target.place = s) :
    (fs.put s (.file contents runnable)).walk kind links place names = .ok (.present s) := by
  refine Leads.walk ?_
  induction leads_of_walk found with
  | nil links place =>
    obtain rfl : place = s := there
    exact .nil links place
  | @ends links place name rest target strides =>
    have step := stride_put h contents runnable through place name rest
    rw [strides] at step
    obtain ⟨goes, rfl⟩ := step there
    exact .goes goes (.nil links s)
  | @goes links place next name rest target strides onward ih =>
    have step := stride_put h contents runnable through place name rest
    rw [strides] at step
    exact .goes step (ih onward.walk there)
  | @follows fewer place next name rest names target strides onward ih =>
    have step := stride_put h contents runnable through place name rest
    rw [strides] at step
    exact .follows step (ih onward.walk there)

/-- A file is opened for writing at the end of a walk, where nothing but a file lies. -/
theorem openToWrite_ok {old : Option (List UInt8 × Bool)} (h : fs.openToWrite p = .ok (s, old)) :
    fs.get s = old.map (fun f => .file f.1 f.2) ∧ accept p = .ok () ∧
      ∃ target, fs.walk .make linkLimit (fs.origin p) p.steps = .ok target ∧ target.place = s := by
  unfold openToWrite at h
  cases found : fs.resolve .make p with
  | error fault =>
    rw [found] at h
    cases h
  | ok target =>
    rw [found] at h
    obtain ⟨accepted, walks, -⟩ := resolve_eq_ok.1 found
    cases target with
    | absent place =>
      cases h
      exact ⟨get_of_walk_absent walks, accepted, _, walks, rfl⟩
    | present place =>
      cases file : fs.get place with
      | none => simp [file, bind, Except.bind, throw, throwThe, MonadExceptOf.throw] at h
      | some e =>
        cases e with
        | file contents runnable =>
          simp only [file, bind, Except.bind, pure, Except.pure] at h
          cases h
          exact ⟨file, accepted, _, walks, rfl⟩
        | _ => simp [file, bind, Except.bind, throw, throwThe, MonadExceptOf.throw] at h

theorem mayHoldFile_of_get {old : Option (List UInt8 × Bool)}
    (h : fs.get s = old.map fun f => .file f.1 f.2) : fs.MayHoldFile s := by
  cases old with
  | none => exact .inl h
  | some f => exact .inr ⟨f.1, f.2, h⟩

theorem write_ok {contents : List UInt8} (h : fs.write p contents = .ok fs') :
    ∃ s old, fs.openToWrite p = .ok (s, old) ∧
      fs' = fs.put s (.file contents ((old.map Prod.snd).getD false)) := by
  unfold write at h
  cases opened : fs.openToWrite p with
  | error fault =>
    rw [opened] at h
    cases h
  | ok found =>
    rw [opened] at h
    cases h
    exact ⟨found.1, found.2, rfl, rfl⟩

/-- After a file has been put where its path was opened, the path leads to it. -/
theorem resolve_of_put {old : Option (List UInt8 × Bool)} (opened : fs.openToWrite p = .ok (s, old))
    (contents : List UInt8) (runnable : Bool) (kind : Purpose) (through : kind ≠ .entry) :
    (fs.put s (.file contents runnable)).resolve kind p = .ok (.present s) ∧
      (fs.put s (.file contents runnable)).get s = some (.file contents runnable) := by
  obtain ⟨lies, accepted, target, walks, there⟩ := openToWrite_ok opened
  have free := mayHoldFile_of_get lies
  have file := get_put fs (.file contents runnable) s free.ne_root
  rw [if_pos rfl] at file
  have walks' := walk_put free contents runnable kind through walks there
  refine ⟨resolve_eq_ok.2 ⟨accepted, walks', ?_⟩, file⟩
  rintro _ ⟨⟩
  rw [file]
  nofun

theorem resolve_of_write {contents : List UInt8} (kind : Purpose) (through : kind ≠ .entry)
    (h : fs.write p contents = .ok fs') :
    ∃ s runnable, fs'.resolve kind p = .ok (.present s) ∧
      fs'.get s = some (.file contents runnable) := by
  obtain ⟨s, old, opened, rfl⟩ := write_ok h
  exact ⟨s, _, resolve_of_put opened contents _ kind through⟩

/-- What has been written to a path is read from it. -/
theorem read_of_write {contents : List UInt8} (h : fs.write p contents = .ok fs') :
    fs'.read p = .ok contents := by
  obtain ⟨s, runnable, resolved, file⟩ := resolve_of_write .use nofun h
  have found := find_eq_ok.2 resolved
  simp [read, found, file, bind, Except.bind, pure, Except.pure]

/-- What has been written once can be written again. -/
theorem write_again {contents : List UInt8} (contents' : List UInt8)
    (h : fs.write p contents = .ok fs') : ∃ fs'', fs'.write p contents' = .ok fs'' := by
  obtain ⟨s, runnable, resolved, file⟩ := resolve_of_write .make nofun h
  have opened : fs'.openToWrite p = .ok (s, some (contents, runnable)) := by
    simp [openToWrite, resolved, file, bind, Except.bind, pure, Except.pure]
  simp [write, opened, bind, Except.bind, pure, Except.pure]

/-- Writing changes no file but the one that its path then leads to. -/
theorem get_of_write {contents : List UInt8} {q : Place} (h : fs.write p contents = .ok fs')
    (other : fs'.find p ≠ .ok q) : fs'.get q = fs.get q := by
  obtain ⟨s, old, opened, rfl⟩ := write_ok h
  obtain ⟨resolved, -⟩ :=
    resolve_of_put opened contents ((old.map Prod.snd).getD false) .use nofun
  have root := (mayHoldFile_of_get (openToWrite_ok opened).1).ne_root
  rw [get_put fs _ q root, if_neg]
  rintro rfl
  exact other (find_eq_ok.2 resolved)

/-! ### Writing within a region -/

theorem openToWrite_congr (agree : AgreeOn K fs fs') (confined : fs.Confined K p) :
    fs'.openToWrite p = fs.openToWrite p := by
  unfold openToWrite
  rw [resolve_congr agree confined]
  cases found : fs.resolve .make p with
  | error fault => rfl
  | ok target =>
    cases target with
    | absent s => rfl
    | present s =>
      obtain ⟨-, walks, -⟩ := resolve_eq_ok.1 found
      have within : K s := confined.target walks
      dsimp only [bind, Except.bind]
      rw [agree.get s within]

theorem write_grown {contents : List UInt8} (confined : fs.Confined K p)
    (h : fs.write p contents = .ok fs') : Grown K fs fs' := by
  obtain ⟨s, old, opened, rfl⟩ := write_ok h
  obtain ⟨lies, -, target, walks, rfl⟩ := openToWrite_ok opened
  refine Grown.put (mayHoldFile_of_get lies).ne_root (confined.target walks) ?_
  rw [lies]
  cases old with
  | none => exact .newFile _ _
  | some f => exact .overwritten _ _ _

theorem write_congr (agree : AgreeOn K fs fs') (confined : fs.Confined K p)
    (contents : List UInt8) :
    (∃ fault, fs.write p contents = .error fault ∧ fs'.write p contents = .error fault) ∨
      ∃ written written', fs.write p contents = .ok written ∧
        fs'.write p contents = .ok written' ∧ AgreeOn K written written' := by
  cases opened : fs.openToWrite p with
  | error fault =>
    have opened' := (openToWrite_congr agree confined).trans opened
    refine .inl ⟨fault, ?_, ?_⟩
    · simp [write, opened, bind, Except.bind]
    · simp [write, opened', bind, Except.bind]
  | ok found =>
    obtain ⟨s, old⟩ := found
    have opened' := (openToWrite_congr agree confined).trans opened
    have root := (mayHoldFile_of_get (openToWrite_ok opened).1).ne_root
    refine .inr ⟨_, _, ?_, ?_, agree.put root (.file contents ((old.map Prod.snd).getD false))⟩
    · simp [write, opened, bind, Except.bind, pure, Except.pure]
    · simp [write, opened', bind, Except.bind, pure, Except.pure]

end FileSystem

end BuildPanel
