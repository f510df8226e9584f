import BuildPanel.Proofs.FileSystem.Make
import BuildPanel.Proofs.Path

/-!
What lies above a directory. The parent of a path that names a directory names a directory too. So
making directories along a path is honest: it fails only if the path names no directory afterwards,
whatever has been made on the way.
-/

namespace BuildPanel

namespace FileSystem

variable {fs : FileSystem} {p q : Path} {place : Place} {names : List Name}

/-- A walk that goes on has come to a directory. -/
theorem directory_of_walk_append {links : Nat} {start a : Place} {xs ys : List Name} {target : Target}
    (more : ys ≠ []) (walks : fs.walk .use links start xs = .ok (.present a))
    (onward : fs.walk .use links start (xs ++ ys) = .ok target) : fs.get a = some .directory := by
  obtain ⟨m, same⟩ := walk_append walks
  rw [same .use ys nofun more] at onward
  cases ys with
  | nil => exact absurd rfl more
  | cons name rest =>
    refine Classical.byContradiction fun none_ => ?_
    rw [walk_cons, stride, if_pos none_] at onward
    cases onward

theorem origin_of_starts (starts : q <+: p) (given : q ≠ []) : fs.origin q = fs.origin p := by
  obtain ⟨rest, rfl⟩ := starts
  cases q with
  | nil => exact absurd rfl given
  | cons b q => rfl

theorem accept_of_starts (starts : q <+: p) (given : q ≠ []) (accepted : accept p = .ok ()) :
    accept q = .ok () := by
  obtain ⟨rest, rfl⟩ := starts
  unfold accept at *
  split at accepted
  · cases accepted
  · next clean =>
    rw [if_neg (fun inside => clean (List.mem_append_left rest inside)), if_neg given]
    split at accepted
    · cases accepted
    · split at accepted
      · cases accepted
      · next short =>
        rw [if_neg]
        rw [List.length_append] at short
        omega

/-- A path names a directory if the walk along its names leads to one. -/
theorem isDirectory_of_names (accepted : accept p = .ok ())
    (walks : fs.walk .use linkLimit (fs.origin p) p.names = .ok (.present place))
    (directory : fs.get place = some .directory) : fs.isDirectory p = true := by
  refine isDirectory_iff.2 ⟨accepted, place, ?_, directory⟩
  unfold Path.steps
  split
  · obtain ⟨m, onward⟩ := walk_append walks
    rw [onward .use _ nofun (by simp)]
    exact walk_mark directory true
  · exact walks

/-- A walk along a path leads to the same place without a separator at the end. -/
theorem walk_names {links : Nat} {start : Place}
    (walks : fs.walk .use links start p.steps = .ok (.present place)) :
    fs.walk .use links start p.names = .ok (.present place) := by
  unfold Path.steps at walks
  split at walks
  · obtain ⟨a, before⟩ := @walk_init fs .use _ _ _ _ _ nofun (by simp) walks
    have inside := directory_of_walk_append (by simp) before walks
    obtain ⟨m, onward⟩ := walk_append before
    have mark := @walk_mark fs .use m a inside true
    rw [if_pos rfl] at mark
    rw [onward .use _ nofun (by simp), mark] at walks
    cases walks
    exact before
  · exact walks

/-- What lies above a directory is a directory. -/
theorem isDirectory_parent? (above : p.parent? = some q) (given : q ≠ [])
    (h : fs.isDirectory p = true) : fs.isDirectory q = true := by
  obtain ⟨name, ⟨j, k, names⟩, -, starts⟩ := Path.extends_parent? above
  obtain ⟨accepted, s, leads, -⟩ := isDirectory_iff.1 h
  have accepted := accept_of_starts starts given accepted
  have walks := walk_names leads
  rw [names, List.append_assoc, ← origin_of_starts starts given] at walks
  obtain ⟨a, before⟩ := @walk_init fs .use _ _ _ _ _ nofun (by simp) walks
  exact isDirectory_of_names accepted before (directory_of_walk_append (by simp) before walks)

theorem isDirectory_of_makeLast_error {fault : Fault} (h : (fs.makeLast p).2 = .error fault) :
    (fs.makeLast p).1.isDirectory p = false := by
  unfold makeLast at *
  cases free : fs.vacancy p with
  | ok s =>
    rw [free] at h
    cases h
  | error refused =>
    rw [free] at h
    by_cases there : fs.isDirectory p = true
    · simp [there] at h
    · simpa using there

theorem isDirectory_of_lacksAbove (missing : fs.lacksAbove p = true) :
    fs.isDirectory p = false := by
  refine Bool.eq_false_iff.2 fun there => ?_
  rw [lacksAbove, vacancy_of_isDirectory there] at missing
  cases missing

/-- After every failure the path names no directory, however much has been made on the way. -/
theorem isDirectory_of_makeAlong_error {fault : Fault}
    (h : (fs.makeAlong p.ancestors).2 = .error fault) :
    (fs.makeAlong p.ancestors).1.isDirectory p = false := by
  induction length : p.length using Nat.strongRecOn generalizing p fault with
  | _ n ih =>
    obtain ⟨above, ancestors⟩ : ∃ above, p.ancestors = p :: above := ⟨_, rfl⟩
    have given : p ≠ [] := by
      rintro rfl
      rw [ancestors, makeAlong_cons, if_pos rfl] at h
      cases h
    by_cases missing : fs.lacksAbove p = true
    case neg =>
      rw [ancestors, makeAlong_cons, if_neg given, if_neg missing] at h ⊢
      exact isDirectory_of_makeLast_error h
    cases parent : p.parent? with
    | none =>
      rw [Path.ancestors_of_parent?_eq_none parent, makeAlong_cons, if_neg given, if_pos missing]
      exact isDirectory_of_lacksAbove missing
    | some q =>
      rw [Path.ancestors_of_parent?_eq_some parent, makeAlong_cons, if_neg given,
        if_pos missing] at h ⊢
      have shorter := Path.length_parent?_lt parent
      have refused := @ih q.length (length ▸ shorter) q
      have lies : q = [] → (fs.makeAlong q.ancestors).2 = .ok () := by
        rintro rfl
        rfl
      generalize fs.makeAlong q.ancestors = r at *
      obtain ⟨made, fault | _⟩ := r
      · -- what could not be made above the path is not above a directory
        refine Bool.eq_false_iff.2 fun there => Bool.eq_false_iff.1 (refused rfl rfl) ?_
        exact isDirectory_parent? parent (fun empty => nomatch lies empty) there
      · exact isDirectory_of_makeLast_error h

end FileSystem

end BuildPanel
