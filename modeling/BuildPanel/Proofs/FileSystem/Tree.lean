import Mathlib.Data.List.Induction
import BuildPanel.Proofs.FileSystem.Above
import BuildPanel.Proofs.FileSystem.Furnish
import BuildPanel.Proofs.FileSystem.Remove

/-!
File systems are trees: what lies anywhere lies in a directory, and making and removing keep it so.
In a tree nothing is hidden where nothing lies, so that a directory that is made there is empty. It
is still empty when all of a path has been made, unless the path goes up from a directory that is
made on the way.
-/

namespace BuildPanel

namespace FileSystem

/-- Whatever lies anywhere lies in a directory. -/
def IsTree (fs : FileSystem) : Prop :=
  ∀ s name, fs.get (s ++ [name]) ≠ none → fs.get s = some .directory

variable {fs fs' : FileSystem} {p q : Path} {s place : Place} {name : Name}

theorem isTree_of_entries (h : ∀ m ∈ fs.entries, fs.get m.1.dropLast = some .directory) :
    fs.IsTree := by
  intro s name there
  rw [get_of_ne_root fs (by simp)] at there
  obtain ⟨m, hm, same⟩ : ∃ m ∈ fs.entries, m.1 = s ++ [name] := by
    refine Classical.byContradiction fun none_ => there (lookup_eq_none_iff.2 fun m hm same => ?_)
    exact none_ ⟨m, hm, same⟩
  have above := h m hm
  rw [same, List.dropLast_concat] at above
  exact above

namespace IsTree

/-- Nothing is hidden below a place that is no directory. -/
theorem free_below (tree : fs.IsTree) (other : fs.get s ≠ some .directory) (name : Name) :
    fs.get (s ++ [name]) = none :=
  Classical.byContradiction fun there => other (tree s name there)

theorem below (tree : fs.IsTree) {q : Place} (under : s <+: q) (other : q ≠ s)
    (there : fs.get q ≠ none) : fs.get s = some .directory := by
  obtain ⟨rest, rfl⟩ := under
  induction rest using List.reverseRecOn with
  | nil => exact absurd (List.append_nil s) other
  | append_singleton rest name ih =>
    rw [← List.append_assoc] at there
    have above := tree (s ++ rest) name there
    by_cases direct : s ++ rest = s
    · rw [direct] at above
      exact above
    · exact ih direct (by rw [above]; nofun)

theorem put_directory (tree : fs.IsTree) (above : fs.get place = some .directory) :
    (fs.put (place ++ [name]) .directory).IsTree := by
  intro s other there
  rw [get_put fs .directory _ (by simp)] at there ⊢
  by_cases same : s ++ [other] = place ++ [name]
  · obtain ⟨rfl, -⟩ := List.append_inj' same rfl
    rw [if_neg (by simp), above]
  · rw [if_neg same] at there
    rw [tree s other there]
    exact ite_self _

theorem clear (tree : fs.IsTree) (s : Place) : (fs.clear s).IsTree := by
  intro q name there
  rw [get_clear] at there ⊢
  split at there
  · exact absurd rfl there
  · next outside =>
    rw [if_neg, tree q name there]
    rintro ⟨under, other⟩
    refine outside ⟨under.trans (List.prefix_append q [name]), ?_⟩
    rintro rfl
    exact absurd under.length_le (by simp)

theorem prune (tree : fs.IsTree) (root : s ≠ []) : (fs.prune s).IsTree := by
  intro q name there
  rw [get_prune fs _ root] at there ⊢
  split at there
  · exact absurd rfl there
  · next outside =>
    rw [if_neg, tree q name there]
    exact fun under => outside (under.trans (List.prefix_append q [name]))

theorem makeLast (tree : fs.IsTree) (p : Path) : (fs.makeLast p).1.IsTree := by
  unfold FileSystem.makeLast
  cases free : fs.vacancy p with
  | ok s =>
    obtain ⟨place, name, last, rfl, -⟩ := vacancy_ok free
    obtain ⟨-, -, -, above, -⟩ := lastStep_ok last
    exact tree.put_directory above
  | error fault => exact tree

theorem makeAlong (tree : fs.IsTree) (ps : List Path) : (fs.makeAlong ps).1.IsTree := by
  induction ps with
  | nil => exact tree
  | cons p above ih =>
    rw [makeAlong_cons]
    split
    · exact tree
    split
    · split
      · next made fault outcome =>
        rw [outcome] at ih
        exact ih
      · next made outcome =>
        rw [outcome] at ih
        exact ih.makeLast p
    · exact tree.makeLast p

end IsTree

theorem Removal.isTree {outcome : Except Fault Unit} (h : Removal fs p fs' outcome)
    (tree : fs.IsTree) : fs'.IsTree := by
  cases h with
  | missing => exact tree
  | file => exact tree
  | link _ lies => exact tree.prune (ne_root_of_link lies)
  | directory _ _ root _ => exact (tree.clear _).prune root
  | emptied => exact tree.clear _

/-! ### Directories that are made anew -/

/-- Some names lead to a directory. -/
def LeadToDirectory (fs : FileSystem) (start : Place) (names : List Name) : Prop :=
  ∃ s, fs.walk .use linkLimit start names = .ok (.present s) ∧ fs.get s = some .directory

instance (fs : FileSystem) (start : Place) (names : List Name) :
    Decidable (fs.LeadToDirectory start names) :=
  match walks : fs.walk .use linkLimit start names with
  | .ok (.present s) =>
    decidable_of_iff (fs.get s = some .directory) (by simp [LeadToDirectory, walks])
  | .ok (.absent s) => .isFalse (by simp [LeadToDirectory, walks])
  | .error fault => .isFalse (by simp [LeadToDirectory, walks])

/-- Wherever a path goes up, it goes up from a directory that is there. -/
def Ascends (fs : FileSystem) (p : Path) : Prop :=
  ∀ front rest, p.names = front ++ Path.up :: rest → fs.LeadToDirectory (fs.origin p) front

theorem ascends_iff : fs.Ascends p ↔ ∀ i < p.names.length, p.names[i]? = some Path.up →
    fs.LeadToDirectory (fs.origin p) (p.names.take i) := by
  constructor
  · intro ascends i inside up
    refine ascends _ (p.names.drop (i + 1)) ?_
    obtain ⟨_, same⟩ := List.getElem?_eq_some_iff.1 up
    rw [← same, ← List.drop_eq_getElem_cons inside, List.take_append_drop]
  · intro ascends front rest names
    have front_ := ascends front.length (by simp [names]) (by simp [names])
    rwa [names, List.take_left] at front_

instance (fs : FileSystem) (p : Path) : Decidable (fs.Ascends p) :=
  decidable_of_iff' _ ascends_iff

theorem Ascends.above (ascends : fs.Ascends p) (above : p.parent? = some q) (given : q ≠ []) :
    fs.Ascends q := by
  obtain ⟨name, ⟨j, k, names⟩, -, starts⟩ := Path.extends_parent? above
  intro front rest same
  rw [origin_of_starts starts given]
  refine ascends front (rest ++ List.replicate j Path.self ++ name :: List.replicate k Path.self) ?_
  rw [names, same]
  simp

/-- A path names a directory with nothing in it, at a place where nothing lay before. -/
def Fresh (fs made : FileSystem) (p : Path) : Prop :=
  ∃ s, made.find p = .ok s ∧ made.get s = some .directory ∧ fs.get s = none ∧ made.list s = []

theorem fresh_of_vacancy (tree : fs'.IsTree) (furnished : Furnished fs fs')
    (free : fs'.vacancy p = .ok s) : Fresh fs (fs'.put s .directory) p := by
  obtain ⟨found, made⟩ := find_of_vacancy free
  obtain ⟨place, name, -, rfl, none_⟩ := vacancy_ok free
  refine ⟨place ++ [name], found, made, ?_, list_eq_nil_iff.2 fun other => ?_⟩
  · refine Option.eq_none_iff_forall_ne_some.2 fun e lies => ?_
    rw [furnished.kept trivial lies] at none_
    cases none_
  · rw [get_put fs' .directory _ (by simp), if_neg (by simp)]
    exact tree.free_below (by rw [none_]; nofun) other

theorem fresh_of_makeLast (tree : fs'.IsTree) (furnished : Furnished fs fs')
    (missing : fs'.isDirectory p = false) (made : (fs'.makeLast p).2 = .ok ()) :
    Fresh fs (fs'.makeLast p).1 p := by
  unfold makeLast at *
  cases free : fs'.vacancy p with
  | ok s => exact fresh_of_vacancy tree furnished free
  | error fault =>
    rw [free, missing] at made
    cases made

theorem walk_dots {links : Nat} (directory : fs.get s = some .directory) (k : Nat) :
    fs.walk .use links s (List.replicate k Path.self) = .ok (.present s) := by
  induction k with
  | zero => exact walk_nil links s
  | succ k ih =>
    have stays : fs.stride .use s Path.self (List.replicate k Path.self) = .goes s := by
      simp [stride, directory, dotted?]
    rw [List.replicate_succ, walk_goes stays, ih]

/-- Dots behind the names of a directory change nothing. -/
theorem walk_append_dots {links : Nat} {start : Place} {xs : List Name}
    (walks : fs.walk .use links start xs = .ok (.present s))
    (directory : fs.get s = some .directory) (k : Nat) :
    fs.walk .use links start (xs ++ List.replicate k Path.self) = .ok (.present s) := by
  cases k with
  | zero => rwa [List.replicate_zero, List.append_nil]
  | succ k =>
    obtain ⟨m, onward⟩ := walk_append walks
    rw [onward .use _ nofun (by simp)]
    exact walk_dots directory (k + 1)

/-- Nothing leads on from a directory with nothing in it but dots. -/
theorem walk_of_empty {links : Nat} {rest : List Name} {target : Place}
    (directory : fs.get s = some .directory) (empty : fs.list s = [])
    (plain : dotted? s name = none) :
    fs.walk .use links s (name :: rest) ≠ .ok (.present target) := by
  have free := list_eq_nil_iff.1 empty name
  intro walks
  rw [walk_cons, stride, if_neg (not_not_intro directory), plain, free] at walks
  dsimp only at walks
  cases refused : refusal? .use name rest with
  | some fault =>
    rw [refused] at walks
    cases walks
  | none =>
    rw [refused] at walks
    by_cases last : rest = [] <;> simp [arrive, last] at walks

/-- What stands above dots that lead to a directory is a directory too. -/
theorem directory_above_dots {links k : Nat} {start : Place} {xs : List Name}
    (walks : fs.walk .use links start (xs ++ List.replicate k Path.self) = .ok (.present s))
    (directory : fs.get s = some .directory) :
    ∃ a, fs.walk .use links start xs = .ok (.present a) ∧ fs.get a = some .directory := by
  cases k with
  | zero =>
    rw [List.replicate_zero, List.append_nil] at walks
    exact ⟨s, walks, directory⟩
  | succ k =>
    obtain ⟨a, before⟩ := @walk_init fs .use _ _ _ _ _ nofun (by simp) walks
    exact ⟨a, before, directory_of_walk_append (by simp) before walks⟩

/-- A path that has been made, and does not go up from what has been made, does not lead through a
fresh directory. -/
theorem not_fresh_above (above : p.parent? = some q) (given : q ≠ []) (ascends : fs.Ascends p)
    (missing : fs.isDirectory q = false) (there : fs'.isDirectory p = true) : ¬ Fresh fs fs' q := by
  rintro ⟨s, found, directory, -, empty⟩
  obtain ⟨name, ⟨j, k, names⟩, dot, starts⟩ := Path.extends_parent? above
  obtain ⟨accepted, t, leads, -⟩ := isDirectory_iff.1 there
  have accepted := accept_of_starts starts given accepted
  obtain ⟨-, leads', -⟩ := resolve_eq_ok.1 (find_eq_ok.1 found)
  have front := walk_append_dots (walk_names leads') directory j
  obtain ⟨m, onward⟩ := walk_append front
  have walks := walk_names leads
  rw [names, ← origin_of_starts starts given, onward .use _ nofun (by simp)] at walks
  by_cases up : name = Path.up
  · subst up
    obtain ⟨a, before, top⟩ := ascends _ _ names
    obtain ⟨b, leads, top⟩ := directory_above_dots before top
    rw [← origin_of_starts starts given] at leads
    rw [isDirectory_of_names accepted leads top] at missing
    cases missing
  · have named : name ∈ p.names := by simp [names]
    have some_ := Path.ne_nil_of_mem_names named
    have notSelf : name ≠ Path.self := fun self => given (dot self)
    have plain : dotted? s name = none := by simp [dotted?, some_, up, notSelf]
    exact walk_of_empty directory empty plain walks

/-- What is made at the end of a path is fresh, if nothing was there. -/
theorem fresh_of_makeAlong (tree : fs.IsTree) (given : p ≠ []) (ascends : fs.Ascends p)
    (missing : fs.isDirectory p = false) (made : (fs.makeAlong p.ancestors).2 = .ok ()) :
    Fresh fs (fs.makeAlong p.ancestors).1 p := by
  induction length : p.length using Nat.strongRecOn generalizing p with
  | _ n ih =>
    obtain ⟨above, ancestors⟩ : ∃ above, p.ancestors = p :: above := ⟨_, rfl⟩
    by_cases lacks : fs.lacksAbove p = true
    case neg =>
      rw [ancestors, makeAlong_cons, if_neg given, if_neg lacks] at made ⊢
      exact fresh_of_makeLast tree (.refl _ fs) missing made
    cases parent : p.parent? with
    | none =>
      rw [Path.ancestors_of_parent?_eq_none parent, makeAlong_cons, if_neg given,
        if_pos lacks] at made
      cases made
    | some q =>
      rw [Path.ancestors_of_parent?_eq_some parent, makeAlong_cons, if_neg given,
        if_pos lacks] at made ⊢
      have furnished := makeAlong_furnished fs q.ancestors
      have tree' := tree.makeAlong q.ancestors
      have fresh := @ih q.length (length ▸ Path.length_parent?_lt parent) q
      have stays : q = [] ∨ fs.isDirectory q = true → fs.makeAlong q.ancestors = (fs, .ok ()) := by
        rintro (rfl | there)
        · rfl
        · exact makeAlong_of_isDirectory there
      generalize fs.makeAlong q.ancestors = r at *
      obtain ⟨fs', fault | _⟩ := r
      · cases made
      · -- a directory that the path names by now would lie in a fresh one
        refine fresh_of_makeLast tree' furnished (Bool.eq_false_iff.2 fun there => ?_) made
        by_cases settled : q = [] ∨ fs.isDirectory q = true
        · obtain rfl : fs' = fs := congrArg Prod.fst (stays settled)
          rw [missing] at there
          cases there
        · obtain ⟨some_, missing'⟩ := not_or.1 settled
          have missing' := Bool.eq_false_iff.2 missing'
          exact not_fresh_above parent some_ ascends missing' there
            (fresh some_ (ascends.above parent some_) missing' rfl rfl)

end FileSystem

end BuildPanel
