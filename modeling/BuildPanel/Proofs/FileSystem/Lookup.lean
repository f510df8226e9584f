import BuildPanel.FileSystem.Operations
import BuildPanel.Proofs.FileSystem.Region

/-!
Looking up paths. What is found by a path whose walk keeps to a region depends on nothing else; and
a path that names a directory still does after files and directories have been made.
-/

namespace BuildPanel

theorem Path.ne_nil_of_mem_names {p : Path} {name : Name} (h : name ∈ p.names) : name ≠ [] := by
  unfold names at h
  simpa using (List.mem_filter.1 h).2

theorem Path.steps_eq {p : Path} {name : Name} (last : p.names.getLast? = some name) :
    p.steps = p.names.dropLast ++ name :: if p.isMarkedDirectory then [[]] else [] := by
  obtain ⟨init, names⟩ := List.getLast?_eq_some_iff.1 last
  unfold steps
  rw [names]
  by_cases marked : p.isMarkedDirectory <;> simp [marked]

namespace FileSystem

variable {K : Place → Prop} {fs fs' : FileSystem} {p : Path} {place s : Place} {name : Name}

/-- Whether the walk along a path keeps to a region. -/
def Confined (fs : FileSystem) (K : Place → Prop) (p : Path) : Prop :=
  fs.KeepsTo K linkLimit (fs.origin p) p.steps

instance (fs : FileSystem) (K : Place → Prop) [DecidablePred K] (p : Path) :
    Decidable (fs.Confined K p) :=
  inferInstanceAs (Decidable (fs.KeepsTo K linkLimit (fs.origin p) p.steps))

theorem origin_congr (h : fs'.here = fs.here) (p : Path) : fs'.origin p = fs.origin p := by
  rw [origin, origin, h]

theorem Confined.of_growsOn (grown : GrowsOn K fs fs') (h : fs.Confined K p) :
    fs'.Confined K p := by
  unfold Confined
  rw [origin_congr grown.here]
  exact KeepsTo.of_growsOn grown h

theorem Grown.confined (h : Grown K fs fs') (confined : fs.Confined K p) : fs'.Confined K p :=
  confined.of_growsOn (h.grows.mono fun _ _ => trivial)

theorem resolve_congr {purpose : Purpose} (agree : AgreeOn K fs fs') (confined : fs.Confined K p) :
    fs'.resolve purpose p = fs.resolve purpose p := by
  rw [resolve_eq, resolve_eq, origin_congr agree.here, walk_congr agree confined]
  cases accept p with
  | error fault => rfl
  | ok =>
    dsimp only
    cases walks : fs.walk purpose linkLimit (fs.origin p) p.steps with
    | error fault => rfl
    | ok target =>
      cases target with
      | absent s => rfl
      | present s =>
        dsimp only
        rw [agree.get s (confined.target walks)]

/-- A path names a directory where its walk leads to one. -/
theorem find_of_walk {s : Place} (accepted : accept p = .ok ())
    (walks : fs.walk .use linkLimit (fs.origin p) p.steps = .ok (.present s))
    (there : fs.get s ≠ none) : fs.find p = .ok s := by
  refine find_eq_ok.2 (resolve_eq_ok.2 ⟨accepted, walks, ?_⟩)
  rintro _ ⟨⟩
  exact there

/-- What is found is found again after files and directories have been made. -/
theorem find_grows (grown : GrowsOn K fs fs') (confined : fs.Confined K p)
    (found : fs.find p = .ok s) : fs'.find p = .ok s := by
  obtain ⟨accepted, walks, there⟩ := resolve_eq_ok.1 (find_eq_ok.1 found)
  have walks' := walk_grows grown confined walks
  rw [← origin_congr grown.here] at walks'
  refine find_of_walk accepted walks' ?_
  have within : K s := confined.target walks
  have grows := grown.grows s within
  intro gone
  rw [gone] at grows
  cases lies : fs.get s with
  | none => exact there s rfl lies
  | some e =>
    rw [lies] at grows
    cases grows

theorem isDirectory_iff : fs.isDirectory p = true ↔ accept p = .ok () ∧
    ∃ s, fs.walk .use linkLimit (fs.origin p) p.steps = .ok (.present s) ∧
      fs.get s = some .directory := by
  unfold isDirectory
  constructor
  · intro h
    cases found : fs.find p with
    | error fault =>
      rw [found] at h
      cases h
    | ok s =>
      rw [found] at h
      obtain ⟨accepted, walks, -⟩ := resolve_eq_ok.1 (find_eq_ok.1 found)
      exact ⟨accepted, s, walks, of_decide_eq_true h⟩
  · rintro ⟨accepted, s, walks, directory⟩
    have found : fs.find p = .ok s := find_of_walk accepted walks (by rw [directory]; nofun)
    rw [found]
    exact decide_eq_true directory

theorem isDirectory_congr (agree : AgreeOn K fs fs') (confined : fs.Confined K p) :
    fs'.isDirectory p = fs.isDirectory p := by
  have same : fs'.find p = fs.find p := by
    unfold find
    rw [resolve_congr agree confined]
  unfold isDirectory
  rw [same]
  cases found : fs.find p with
  | error fault => rfl
  | ok s =>
    obtain ⟨-, walks, -⟩ := resolve_eq_ok.1 (find_eq_ok.1 found)
    have within : K s := confined.target walks
    dsimp only
    rw [agree.get s within]

theorem isDirectory_grows (grown : Grown K fs fs') (h : fs.isDirectory p = true) :
    fs'.isDirectory p = true := by
  obtain ⟨accepted, s, walks, directory⟩ := isDirectory_iff.1 h
  refine isDirectory_iff.2 ⟨accepted, s, ?_, ?_⟩
  · rw [origin_congr grown.grows.here]
    exact walk_grows grown.grows (keepsTo_everywhere _ _ _) walks
  · have grows := grown.grows.grows s trivial
    rw [directory] at grows
    exact grows.directory

theorem lastStep_eq (fs : FileSystem) (p : Path) :
    fs.lastStep p =
      match accept p with
      | .error fault => .error fault
      | .ok () =>
        match p.names.getLast? with
        | none => .ok (fs.origin p, none)
        | some name =>
          match fs.walk .use linkLimit (fs.origin p) p.names.dropLast with
          | .error fault => .error fault
          | .ok (.absent _) => .error .notFound
          | .ok (.present place) =>
            if fs.get place ≠ some .directory then .error .notDirectory
            else if name = Path.self ∨ name = Path.up then .ok (place, none)
            else if nameLimit < name.length then .error .nameTooLong
            else .ok (place, some name) := by
  unfold lastStep origin
  cases accept p with
  | error fault => rfl
  | ok =>
    dsimp only [bind, Except.bind]
    cases p.names.getLast? with
    | none => rfl
    | some name =>
      dsimp only
      cases fs.walk .use linkLimit (if p.isAbsolute then [] else fs.here) p.names.dropLast with
      | error fault => rfl
      | ok target =>
        cases target with
        | absent s => rfl
        | present place =>
          rfl

theorem lastStep_ok (h : fs.lastStep p = .ok (place, some name)) :
    accept p = .ok () ∧ p.names.getLast? = some name ∧
      fs.walk .use linkLimit (fs.origin p) p.names.dropLast = .ok (.present place) ∧
      fs.get place = some .directory ∧ dotted? place name = none ∧
      ¬ nameLimit < name.length := by
  rw [lastStep_eq] at h
  cases accepted : accept p with
  | error fault =>
    rw [accepted] at h
    cases h
  | ok =>
    rw [accepted] at h
    dsimp only at h
    cases last : p.names.getLast? with
    | none =>
      rw [last] at h
      cases h
    | some given =>
      rw [last] at h
      dsimp only at h
      cases walks : fs.walk .use linkLimit (fs.origin p) p.names.dropLast with
      | error fault =>
        rw [walks] at h
        cases h
      | ok target =>
        rw [walks] at h
        cases target with
        | absent s => cases h
        | present s =>
          dsimp only at h
          by_cases directory : fs.get s = some .directory
          case neg => simp [directory] at h
          by_cases dots : given = Path.self ∨ given = Path.up
          case pos => simp [directory, dots] at h
          by_cases long : nameLimit < given.length
          case pos => simp [directory, dots, long] at h
          simp only [directory, dots, long, ne_eq, not_true_eq_false, if_false] at h
          cases h
          have named := Path.ne_nil_of_mem_names (List.mem_of_getLast? last)
          obtain ⟨not_self, not_up⟩ := not_or.1 dots
          exact ⟨rfl, rfl, rfl, directory, by simp [dotted?, named, not_self, not_up], long⟩

/-- A last name that cannot be given to anything stays at, or goes up from, where it is. -/
theorem lastStep_none (h : fs.lastStep p = .ok (place, none)) :
    accept p = .ok () ∧ (p.names.getLast? = none ∧ place = fs.origin p ∨
      ∃ name, p.names.getLast? = some name ∧ (name = Path.self ∨ name = Path.up) ∧
        fs.walk .use linkLimit (fs.origin p) p.names.dropLast = .ok (.present place) ∧
        fs.get place = some .directory) := by
  rw [lastStep_eq] at h
  cases accepted : accept p with
  | error fault =>
    rw [accepted] at h
    cases h
  | ok =>
    rw [accepted] at h
    dsimp only at h
    cases last : p.names.getLast? with
    | none =>
      rw [last] at h
      cases h
      exact ⟨rfl, .inl ⟨rfl, rfl⟩⟩
    | some name =>
      rw [last] at h
      dsimp only at h
      cases walks : fs.walk .use linkLimit (fs.origin p) p.names.dropLast with
      | error fault =>
        rw [walks] at h
        cases h
      | ok target =>
        rw [walks] at h
        cases target with
        | absent s => cases h
        | present s =>
          dsimp only at h
          by_cases directory : fs.get s = some .directory
          case neg => simp [directory] at h
          by_cases dots : name = Path.self ∨ name = Path.up
          case neg =>
            by_cases long : nameLimit < name.length <;> simp [directory, dots, long] at h
          simp only [directory, dots, ne_eq, not_true_eq_false, if_false, if_true] at h
          cases h
          exact ⟨rfl, .inr ⟨name, rfl, dots, rfl, directory⟩⟩

/-- A directory in which the last name of a path was looked up is found again after files and
directories have been made. -/
theorem lastStep_grows (grown : GrowsOn K fs fs')
    (keeps : fs.KeepsTo K linkLimit (fs.origin p) p.names.dropLast)
    (h : fs.lastStep p = .ok (place, some name)) : fs'.lastStep p = .ok (place, some name) := by
  obtain ⟨accepted, last, walks, directory, plain, short⟩ := lastStep_ok h
  have still := grown.grows place (keeps.target walks)
  rw [directory] at still
  have walks' := walk_grows grown keeps walks
  rw [← origin_congr grown.here] at walks'
  have notDotted : ¬ (name = Path.self ∨ name = Path.up) := by
    rintro (dot | dots)
    · simp [dotted?, dot] at plain
    · simp [dotted?, dots, Path.up, Path.self] at plain
  rw [lastStep_eq, accepted, last]
  simp [walks', still.directory, notDotted, short]

/-- A directory that lies where the last name of a path is looked up is found by the path. -/
theorem walk_last (h : fs.lastStep p = .ok (place, some name))
    (there : fs.get (place ++ [name]) = some .directory) {kind : Purpose} (notMake : kind ≠ .make) :
    fs.walk kind linkLimit (fs.origin p) p.steps = .ok (.present (place ++ [name])) := by
  obtain ⟨-, last, walks, directory, plain, short⟩ := lastStep_ok h
  obtain ⟨m, onward⟩ := walk_append walks
  rw [Path.steps_eq last, onward kind _ notMake (by simp)]
  have goes : fs.stride kind place name (if p.isMarkedDirectory then [[]] else []) =
      .goes (place ++ [name]) := by
    simp [stride, directory, plain, refusal?, notMake, short, there, arrive]
  rw [walk_goes goes]
  exact walk_mark there p.isMarkedDirectory

theorem lastStep_congr (agree : AgreeOn K fs fs') (confined : fs.Confined K p) :
    fs'.lastStep p = fs.lastStep p := by
  rw [lastStep_eq, lastStep_eq, origin_congr agree.here]
  cases accept p with
  | error fault => rfl
  | ok =>
    dsimp only
    cases last : p.names.getLast? with
    | none => rfl
    | some name =>
      have keeps := confined
      unfold Confined at keeps
      rw [Path.steps_eq last] at keeps
      dsimp only
      rw [walk_congr agree keeps.init]
      cases walks : fs.walk .use linkLimit (fs.origin p) p.names.dropLast with
      | error fault => rfl
      | ok target =>
        cases target with
        | absent s => rfl
        | present s =>
          dsimp only
          rw [agree.get s (keeps.init.target walks)]

/-- The last name of a path that keeps to a region is looked up in it. -/
theorem Confined.lastStep (confined : fs.Confined K p)
    (h : fs.lastStep p = .ok (place, some name)) : K (place ++ [name]) := by
  obtain ⟨-, last, walks, -, plain, -⟩ := lastStep_ok h
  unfold Confined at confined
  rw [Path.steps_eq last] at confined
  obtain ⟨m, keeps⟩ := confined.behind (by simp) walks
  exact keeps.looked plain

end FileSystem

end BuildPanel
