import BuildPanel.Proofs.FileSystem.Tree
import BuildPanel.Proofs.Path

/-!
Paths without links and dots. In a tree of named entries each place has one such path, which leads
there from every directory. Taking it from a path that names something keeps what is named, and
taking it again changes nothing. It cannot be taken where a place on the way has a path that is too
long to be looked up.
-/

namespace BuildPanel

/-- The names that entries can have. -/
structure IsName (name : Name) : Prop where
  given : name ≠ []
  notSelf : name ≠ Path.self
  notUp : name ≠ Path.up
  whole : Path.separator ∉ name
  noNul : 0 ∉ name
  short : name.length ≤ FileSystem.nameLimit

instance (name : Name) : Decidable (IsName name) :=
  decidable_of_iff (name ≠ [] ∧ name ≠ Path.self ∧ name ≠ Path.up ∧ Path.separator ∉ name ∧
      0 ∉ name ∧ name.length ≤ FileSystem.nameLimit)
    ⟨fun ⟨a, b, c, d, e, f⟩ => ⟨a, b, c, d, e, f⟩, fun ⟨a, b, c, d, e, f⟩ => ⟨a, b, c, d, e, f⟩⟩

/-- A path that names anything at all takes a step. -/
theorem Path.steps_ne_nil {p : Path} (given : p ≠ []) : p.steps ≠ [] := by
  unfold steps
  split
  · simp
  · next open_ =>
    have ends : lastOf p.reverse ≠ [] := by
      obtain ⟨b, rest, same⟩ := List.exists_cons_of_ne_nil (List.reverse_ne_nil_iff.2 given)
      have last : p.getLast? = some b := by rw [← List.head?_reverse, same, List.head?_cons]
      have other : b ≠ separator := by simpa [isMarkedDirectory, last] using open_
      simp [lastOf, same, other]
    have names := names_reverse ends
    rw [List.reverse_reverse] at names
    simp [names]

namespace FileSystem

variable {fs : FileSystem} {p q : Path} {s t place next : Place} {name : Name}
  {names rest : List Name} {links fewer : Nat}

/-! ### The path of a place -/

/-- The path below the root. -/
def below (s : Place) : Path :=
  s.flatMap (Path.separator :: ·)

theorem below_cons (name : Name) (s : Place) :
    below (name :: s) = Path.separator :: (name ++ below s) := by
  simp [below]

theorem below_append (s t : Place) : below (s ++ t) = below s ++ below t := by
  simp [below]

theorem pathOf_of_ne (h : s ≠ []) : pathOf s = below s :=
  if_neg h

theorem pathOf_cases (s : Place) : s = [] ∧ pathOf s = [Path.separator] ∨
    s ≠ [] ∧ pathOf s = below s := by
  by_cases root : s = []
  · exact .inl ⟨root, if_pos root⟩
  · exact .inr ⟨root, if_neg root⟩

theorem names_cons_separator (u : Path) : Path.names (Path.separator :: u) = Path.names u :=
  Path.names_append [] u

theorem names_below (named : ∀ name ∈ s, IsName name) : (below s).names = s := by
  induction s with
  | nil => rfl
  | cons name s ih =>
    obtain ⟨valid, named⟩ := List.forall_mem_cons.1 named
    have alone : Path.names name = [name] := Path.names_of_open valid.given valid.whole
    rw [below_cons, names_cons_separator]
    cases s with
    | nil => rw [below, List.flatMap_nil, List.append_nil, alone]
    | cons other s =>
      have ih := ih named
      rw [below_cons, names_cons_separator] at ih
      rw [below_cons, Path.names_append, alone, ih]
      rfl

theorem names_of_pathOf (named : ∀ name ∈ s, IsName name) : (pathOf s).names = s := by
  obtain ⟨rfl, path⟩ | ⟨-, path⟩ := pathOf_cases s
  · rw [path]
    rfl
  · rw [path, names_below named]

theorem isAbsolute_pathOf (s : Place) : (pathOf s).isAbsolute = true := by
  obtain ⟨rfl, path⟩ | ⟨given, path⟩ := pathOf_cases s
  · rw [path]
    rfl
  · obtain ⟨name, s, rfl⟩ := List.exists_cons_of_ne_nil given
    rw [path, below_cons]
    rfl

theorem pathOf_ne_nil (s : Place) : pathOf s ≠ [] := by
  intro none_
  have absolute := isAbsolute_pathOf s
  rw [none_] at absolute
  cases absolute

/-- Only the path of the root ends in a separator. -/
theorem steps_pathOf (named : ∀ name ∈ s, IsName name) :
    (pathOf s).steps = if s = [] then [[]] else s := by
  have same := names_of_pathOf named
  obtain ⟨rfl, path⟩ | ⟨given, path⟩ := pathOf_cases s
  · rw [path]
    rfl
  · have open_ : (pathOf s).isMarkedDirectory = false := by
      obtain ⟨front, name, rfl⟩ : ∃ front name, s = front ++ [name] :=
        ⟨_, _, (List.dropLast_concat_getLast given).symm⟩
      have valid := named name (by simp)
      obtain ⟨first, b, rfl⟩ : ∃ first b, name = first ++ [b] :=
        ⟨_, _, (List.dropLast_concat_getLast valid.given).symm⟩
      have other : b ≠ Path.separator := fun same => valid.whole (by simp [same])
      have last : (pathOf (front ++ [first ++ [b]])).getLast? = some b := by
        have ends : below (front ++ [first ++ [b]]) =
            (below front ++ Path.separator :: first) ++ [b] := by simp [below]
        rw [path, ends, List.getLast?_concat]
      simp [Path.isMarkedDirectory, last, other]
    rw [Path.steps, open_, if_neg Bool.false_ne_true, same, if_neg given]

theorem noNul_pathOf (named : ∀ name ∈ s, IsName name) : 0 ∉ pathOf s := by
  obtain ⟨-, path⟩ | ⟨-, path⟩ := pathOf_cases s
  · rw [path]
    decide
  · rw [path, below]
    intro inside
    obtain ⟨name, member, inside⟩ := List.mem_flatMap.1 inside
    rcases List.mem_cons.1 inside with zero | inside
    · cases zero
    · exact (named name member).noNul inside

/-- The path of a place is no longer than those of the places below it. -/
theorem length_pathOf_le (under : t <+: s) : (pathOf t).length ≤ (pathOf s).length := by
  obtain ⟨rest, rfl⟩ := under
  obtain ⟨rfl, path⟩ | ⟨given, path⟩ := pathOf_cases t
  · rw [path]
    exact List.length_pos_iff.2 (pathOf_ne_nil _)
  · rw [path, pathOf_of_ne (by simp [given]), below_append, List.length_append]
    exact Nat.le_add_right _ _

/-! ### What a walk does at a name, and what it looks up -/

/-- What a walk does at a name that it is not stopped at. -/
theorem stride_eq_of_ne_fails (on : ∀ fault, fs.stride .use place name rest ≠ .fails fault) :
    fs.get place = some .directory ∧ fs.stride .use place name rest =
      match dotted? place name with
      | some next => .goes next
      | none => arrive .use place name rest (fs.get (place ++ [name])) := by
  unfold stride at on ⊢
  split at on
  · exact absurd rfl (on _)
  · next directory =>
    refine ⟨not_not.1 directory, ?_⟩
    rw [if_neg directory]
    cases dots : dotted? place name with
    | some next => rfl
    | none =>
      cases refused : refusal? .use name rest with
      | some fault =>
        rw [dots, refused] at on
        exact absurd rfl (on fault)
      | none => rfl

/-- A walk that goes on without a link has passed over dots, or it has come to an entry that is no
link. -/
theorem of_stride_goes (strides : fs.stride .use place name rest = .goes next) :
    fs.get place = some .directory ∧ (dotted? place name = some next ∨
      dotted? place name = none ∧ next = place ++ [name] ∧
        ∃ e, fs.get next = some e ∧ ∀ target, e ≠ .link target) := by
  obtain ⟨directory, same⟩ := stride_eq_of_ne_fails (by rw [strides]; simp)
  rw [strides] at same
  refine ⟨directory, ?_⟩
  cases dots : dotted? place name with
  | some other =>
    rw [dots] at same
    cases same
    exact .inl rfl
  | none =>
    rw [dots] at same
    cases entry : fs.get (place ++ [name]) with
    | none => by_cases last : rest = [] <;> simp [entry, arrive, last] at same
    | some e =>
      rw [entry] at same
      cases e with
      | link target => simp [arrive] at same
      | _ =>
        cases same
        exact .inr ⟨rfl, rfl, _, entry, by simp⟩

/-- A link is followed from the directory that it lies in, or from the root. -/
theorem of_stride_follows (strides : fs.stride .use place name rest = .follows next names) :
    fs.get place = some .directory ∧ dotted? place name = none ∧ ∃ target,
      fs.get (place ++ [name]) = some (.link target) ∧
        next = (if target.isAbsolute then [] else place) ∧ names = target.steps ++ rest := by
  obtain ⟨directory, same⟩ := stride_eq_of_ne_fails (by rw [strides]; simp)
  rw [strides] at same
  refine ⟨directory, ?_⟩
  cases dots : dotted? place name with
  | some other =>
    rw [dots] at same
    cases same
  | none =>
    rw [dots] at same
    cases entry : fs.get (place ++ [name]) with
    | none => by_cases last : rest = [] <;> simp [entry, arrive, last] at same
    | some e =>
      rw [entry] at same
      cases e with
      | link target =>
        simp only [arrive, reduceCtorEq, and_false, if_false] at same
        cases same
        exact ⟨rfl, target, rfl, rfl, rfl⟩
      | _ => cases same

/-- Dots lead no further down. -/
theorem dotted?_above (dots : dotted? place name = some next) : next <+: place := by
  unfold dotted? at dots
  split at dots
  · cases dots
    exact List.prefix_refl _
  · split at dots
    · cases dots
      exact List.dropLast_prefix place
    · cases dots

theorem lookedUpWith_cons (onward : Place → List Name → List Place) (place : Place) (name : Name)
    (rest : List Name) : fs.lookedUpWith onward place (name :: rest) =
      if fs.get place ≠ some .directory then []
      else
        match dotted? place name with
        | some next => fs.lookedUpWith onward next rest
        | none => (place ++ [name]) ::
          match fs.get (place ++ [name]) with
          | none => []
          | some (.link target) =>
            onward (if target.isAbsolute then [] else place) (target.steps ++ rest)
          | some _ => fs.lookedUpWith onward (place ++ [name]) rest := by
  rw [lookedUpWith, dotted?]
  split_ifs <;> rfl

@[simp]
theorem lookedUp_nil (links : Nat) (place : Place) : fs.lookedUp links place [] = [] := by
  cases links <;> rfl

theorem lookedUp_cons (links : Nat) (place : Place) (name : Name) (rest : List Name) :
    fs.lookedUp links place (name :: rest) =
      if fs.get place ≠ some .directory then []
      else
        match dotted? place name with
        | some next => fs.lookedUp links next rest
        | none => (place ++ [name]) ::
          match fs.get (place ++ [name]) with
          | none => []
          | some (.link target) =>
            match links with
            | 0 => []
            | fewer + 1 =>
              fs.lookedUp fewer (if target.isAbsolute then [] else place) (target.steps ++ rest)
          | some _ => fs.lookedUp links (place ++ [name]) rest := by
  cases links with
  | zero => exact lookedUpWith_cons _ place name rest
  | succ fewer => exact lookedUpWith_cons _ place name rest

theorem lookedUp_goes (strides : fs.stride .use place name rest = .goes next) (links : Nat) :
    fs.lookedUp links place (name :: rest) = fs.lookedUp links next rest ∧ next <+: place ∨
      fs.lookedUp links place (name :: rest) = next :: fs.lookedUp links next rest := by
  obtain ⟨directory, dots | ⟨plain, rfl, e, lies, noLink⟩⟩ := of_stride_goes strides
  · rw [lookedUp_cons, if_neg (not_not_intro directory), dots]
    exact .inl ⟨rfl, dotted?_above dots⟩
  · rw [lookedUp_cons, if_neg (not_not_intro directory), plain, lies]
    cases e with
    | link target => exact absurd rfl (noLink target)
    | _ => exact .inr rfl

theorem lookedUp_follows (strides : fs.stride .use place name rest = .follows next names)
    (fewer : Nat) : fs.lookedUp (fewer + 1) place (name :: rest) =
      (place ++ [name]) :: fs.lookedUp fewer next names := by
  obtain ⟨directory, plain, target, lies, rfl, rfl⟩ := of_stride_follows strides
  rw [lookedUp_cons, if_neg (not_not_intro directory), plain, lies]

/-! ### Where walks end -/

/-- Whether a place has a path that is not too long. -/
def IsNear (s : Place) : Prop :=
  (pathOf s).length < pathLimit

instance (s : Place) : Decidable (IsNear s) :=
  inferInstanceAs (Decidable ((pathOf s).length < pathLimit))

theorem IsNear.above (near : IsNear s) (under : t <+: s) : IsNear t :=
  Nat.lt_of_le_of_lt (length_pathOf_le under) near

/-- A walk that looks up near places only does not end far away. -/
theorem isNear_of_walk (walks : fs.walk .use links place names = .ok (.present s))
    (start : IsNear place) (near : ∀ t ∈ fs.lookedUp links place names, IsNear t) : IsNear s := by
  revert start near
  refine walk_use_induction (motive := fun links place names => IsNear place →
    (∀ t ∈ fs.lookedUp links place names, IsNear t) → IsNear s) ?_ ?_ ?_ walks
  · intro links start _
    exact start
  · intro links place next name rest strides ih start near
    obtain ⟨same, under⟩ | same := lookedUp_goes strides links
    · rw [same] at near
      exact ih (start.above under) near
    · rw [same] at near
      obtain ⟨next, near⟩ := List.forall_mem_cons.1 near
      exact ih next near
  · intro fewer place next name rest names strides ih start near
    rw [lookedUp_follows strides] at near
    obtain ⟨-, -, target, -, rfl, -⟩ := of_stride_follows strides
    refine ih ?_ (List.forall_mem_cons.1 near).2
    split
    · exact start.above List.nil_prefix
    · exact start

/-- What no link is. -/
def IsSettled (fs : FileSystem) (s : Place) : Prop :=
  ∀ target, fs.get s ≠ some (.link target)

theorem isSettled_of_directory (directory : fs.get s = some .directory) : fs.IsSettled s := by
  rw [IsSettled, directory]
  exact nofun

/-- Whatever lies above what lies anywhere is a directory. -/
theorem IsTree.directory_above (tree : fs.IsTree) (there : fs.get s = some .directory)
    (under : t <+: s) : fs.get t = some .directory := by
  by_cases same : s = t
  · rwa [same] at there
  · exact tree.below under same (by rw [there]; nofun)

/-- No walk that follows links ends at one. -/
theorem isSettled_of_walk (tree : fs.IsTree)
    (walks : fs.walk .use links place names = .ok (.present s)) (start : fs.IsSettled place) :
    fs.IsSettled s := by
  revert start
  refine walk_use_induction (motive := fun _ place _ => fs.IsSettled place → fs.IsSettled s)
    ?_ ?_ ?_ walks
  · intro links start
    exact start
  · intro links place next name rest strides ih _
    obtain ⟨directory, dots | ⟨-, -, e, lies, noLink⟩⟩ := of_stride_goes strides
    · exact ih (isSettled_of_directory (tree.directory_above directory (dotted?_above dots)))
    · exact ih fun target link => noLink target (Option.some.inj (lies.symm.trans link))
  · intro fewer place next name rest names strides ih _
    obtain ⟨directory, -, target, -, rfl, -⟩ := of_stride_follows strides
    refine ih ?_
    split
    · exact isSettled_of_directory rfl
    · exact isSettled_of_directory directory

theorem stride_down (directory : fs.get place = some .directory) (valid : IsName name)
    (there : fs.get (place ++ [name]) ≠ none) (settled : fs.IsSettled (place ++ [name]))
    (rest : List Name) : fs.stride .use place name rest = .goes (place ++ [name]) := by
  have plain : dotted? place name = none := by
    simp [dotted?, valid.given, valid.notSelf, valid.notUp]
  have taken : refusal? .use name rest = none := by
    simp [refusal?, Nat.not_lt.2 valid.short]
  rw [stride, if_neg (not_not_intro directory), plain, taken]
  cases entry : fs.get (place ++ [name]) with
  | none => exact absurd entry there
  | some e =>
    cases e with
    | link target => exact absurd entry (settled target)
    | _ => rfl

/-- The names below a place lead down to what lies there, and nothing else is looked up. -/
theorem walk_down (tree : fs.IsTree) (named : ∀ name ∈ names, IsName name)
    (there : fs.get (place ++ names) ≠ none) (settled : fs.IsSettled (place ++ names)) :
    fs.walk .use links place names = .ok (.present (place ++ names)) ∧
      ∀ t ∈ fs.lookedUp links place names, t <+: place ++ names := by
  induction names generalizing place with
  | nil => simp
  | cons name rest ih =>
    obtain ⟨valid, named⟩ := List.forall_mem_cons.1 named
    rw [← List.singleton_append, ← List.append_assoc] at there settled ⊢
    obtain ⟨walks, inside⟩ := ih named there settled
    have directory : fs.get place = some .directory :=
      tree.below (List.append_assoc place [name] rest ▸ List.prefix_append _ _) (by simp) there
    have next : fs.get (place ++ [name]) ≠ none ∧ fs.IsSettled (place ++ [name]) := by
      cases rest with
      | nil => exact ⟨by simpa using there, by simpa using settled⟩
      | cons other rest =>
        have above := tree.below (List.prefix_append (place ++ [name]) _) (by simp) there
        exact ⟨by rw [above]; nofun, isSettled_of_directory above⟩
    have strides := stride_down directory valid next.1 next.2 rest
    rw [List.singleton_append]
    refine ⟨(walk_goes strides).trans walks, ?_⟩
    obtain ⟨same, -⟩ | same := lookedUp_goes strides links
    · rw [same]
      exact inside
    · rw [same]
      exact List.forall_mem_cons.2 ⟨List.prefix_append _ _, inside⟩

/-! ### Canonical paths -/

/-- What a path names, however long the path is. -/
structure Names (fs : FileSystem) (p : Path) (s : Place) : Prop where
  given : p ≠ []
  noNul : 0 ∉ p
  leads : fs.walk .use linkLimit (fs.origin p) p.steps = .ok (.present s)
  there : fs.get s ≠ none

/-- What a path names is found by it if the path is not too long. -/
theorem find_eq_ok_iff_names : fs.find p = .ok s ↔ fs.Names p s ∧ p.length < pathLimit := by
  have accepted : accept p = .ok () ↔ p ≠ [] ∧ 0 ∉ p ∧ p.length < pathLimit := by
    unfold accept
    split_ifs with nul none_ long <;> simp_all
  rw [find_eq_ok, resolve_eq_ok, accepted]
  constructor
  · rintro ⟨⟨given, noNul, short⟩, leads, there⟩
    exact ⟨⟨given, noNul, leads, there s rfl⟩, short⟩
  · rintro ⟨⟨given, noNul, leads, there⟩, short⟩
    refine ⟨⟨given, noNul, short⟩, leads, ?_⟩
    rintro _ ⟨⟩
    exact there

/-- Whether only near places are looked up along a path. -/
def StaysNear (fs : FileSystem) (p : Path) : Prop :=
  ∀ t ∈ fs.lookedUp linkLimit (fs.origin p) p.steps, IsNear t

theorem canonical_eq (p : Path) : fs.canonical p =
    if 0 ∈ p then .error .nulInPath
    else if p = [] then .error .notFound
    else if (fs.lookedUp linkLimit (fs.origin p) p.steps).any
        fun s => pathLimit ≤ (pathOf s).length then .error .nameTooLong
    else
      match fs.walk .use linkLimit (fs.origin p) p.steps with
      | .error fault => .error fault
      | .ok (.absent _) => .error .notFound
      | .ok (.present s) => if (fs.get s).isNone then .error .notFound else .ok (pathOf s) := by
  unfold canonical origin
  dsimp only
  cases fs.walk .use linkLimit (if p.isAbsolute then [] else fs.here) p.steps with
  | error fault => split_ifs <;> rfl
  | ok target =>
    cases target with
    | absent s => split_ifs <;> rfl
    | present s => cases fs.get s <;> split_ifs <;> rfl

/-- The canonical path of what a path names is taken if all that is looked up is near, and only
then. -/
theorem canonical_eq_ok_iff :
    fs.canonical p = .ok q ↔ ∃ s, fs.Names p s ∧ fs.StaysNear p ∧ q = pathOf s := by
  have far : (fs.lookedUp linkLimit (fs.origin p) p.steps).any
      (fun s => pathLimit ≤ (pathOf s).length) = true ↔ ¬ fs.StaysNear p := by
    simp [StaysNear, IsNear]
  rw [canonical_eq]
  constructor
  · intro taken
    split_ifs at taken with nul none_ long
    rw [far, not_not] at long
    split at taken
    · cases taken
    · cases taken
    · next s leads =>
      split at taken
      · cases taken
      · next there =>
        cases taken
        exact ⟨s, ⟨none_, nul, leads, by simpa using there⟩, long, rfl⟩
  · rintro ⟨s, ⟨given, noNul, leads, there⟩, near, rfl⟩
    have there : ¬ (fs.get s).isNone := by simpa using there
    rw [if_neg noNul, if_neg given, if_neg fun long => far.1 long near, leads]
    exact if_neg there

theorem canonical_eq_error_iff : (∃ fault, fs.canonical p = .error fault) ↔
    ¬ ∃ s, fs.Names p s ∧ fs.StaysNear p := by
  cases taken : fs.canonical p with
  | error fault =>
    refine iff_of_true ⟨fault, rfl⟩ ?_
    rintro ⟨s, names, near⟩
    cases taken.symm.trans (canonical_eq_ok_iff.2 ⟨s, names, near, rfl⟩)
  | ok root =>
    obtain ⟨s, names, near, -⟩ := canonical_eq_ok_iff.1 taken
    exact iff_of_false nofun fun none_ => none_ ⟨s, names, near⟩

/-- A path that names something leads on from a directory. -/
theorem Names.directory_origin (names : fs.Names p s) : fs.get (fs.origin p) = some .directory := by
  obtain ⟨name, rest, steps⟩ := List.exists_cons_of_ne_nil (Path.steps_ne_nil names.given)
  have leads := names.leads
  refine Classical.byContradiction fun other => ?_
  rw [steps, walk_cons, stride, if_pos other] at leads
  cases leads

/-- What a path names from a near directory is near, if what is looked up is. -/
theorem Names.isNear (names : fs.Names p s) (here : IsNear fs.here) (near : fs.StaysNear p) :
    IsNear s := by
  have origin : IsNear (fs.origin p) := by
    unfold FileSystem.origin
    split
    · decide
    · exact here
  exact isNear_of_walk names.leads origin near

/-- A file system as programs find it: a tree of entries with names that they can have. -/
structure IsSound (fs : FileSystem) : Prop where
  tree : fs.IsTree
  named : ∀ s, fs.get s ≠ none → ∀ name ∈ s, IsName name

theorem isSound_of_entries (tree : ∀ m ∈ fs.entries, fs.get m.1.dropLast = some .directory)
    (named : ∀ m ∈ fs.entries, ∀ name ∈ m.1, IsName name) : fs.IsSound where
  tree := isTree_of_entries tree
  named s there := by
    by_cases root : s = []
    · simp [root]
    · rw [get_of_ne_root fs root] at there
      obtain ⟨m, member, rfl⟩ : ∃ m ∈ fs.entries, m.1 = s := by
        refine Classical.byContradiction fun none_ => there (lookup_eq_none_iff.2 fun m hm same => ?_)
        exact none_ ⟨m, hm, same⟩
      exact named m member

namespace IsSound

variable (sound : fs.IsSound)

include sound

theorem enter (t : Place) : (fs.enter t).IsSound :=
  ⟨sound.tree, sound.named⟩

/-- What a path names is no link. -/
theorem isSettled (names : fs.Names p s) : fs.IsSettled s :=
  isSettled_of_walk sound.tree names.leads (isSettled_of_directory names.directory_origin)

variable (there : fs.get s ≠ none) (settled : fs.IsSettled s)

include there settled

/-- The path of a place leads there by way of the places above it. -/
theorem walk_pathOf :
    fs.walk .use linkLimit (fs.origin (pathOf s)) (pathOf s).steps = .ok (.present s) ∧
    ∀ t ∈ fs.lookedUp linkLimit (fs.origin (pathOf s)) (pathOf s).steps, t <+: s := by
  have named := sound.named s there
  have root : fs.origin (pathOf s) = [] := if_pos (isAbsolute_pathOf s)
  rw [root, steps_pathOf named]
  split
  · next same =>
    subst same
    exact ⟨walk_mark rfl true, nofun⟩
  · exact walk_down sound.tree named there settled

/-- From every directory, the path of a place names what lies there. -/
theorem names_pathOf : fs.Names (pathOf s) s where
  given := pathOf_ne_nil s
  noNul := noNul_pathOf (sound.named s there)
  leads := (sound.walk_pathOf there settled).1
  there := there

theorem staysNear_pathOf (near : IsNear s) : fs.StaysNear (pathOf s) :=
  fun t inside => near.above ((sound.walk_pathOf there settled).2 t inside)

theorem find_pathOf (near : IsNear s) : fs.find (pathOf s) = .ok s :=
  find_eq_ok_iff_names.2 ⟨sound.names_pathOf there settled, near⟩

theorem canonical_pathOf (near : IsNear s) : fs.canonical (pathOf s) = .ok (pathOf s) :=
  canonical_eq_ok_iff.2
    ⟨s, sound.names_pathOf there settled, sound.staysNear_pathOf there settled near, rfl⟩

end IsSound

end FileSystem

end BuildPanel
