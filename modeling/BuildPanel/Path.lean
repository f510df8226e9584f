import BuildPanel.Text.Utf8

/-!
Paths are byte strings in which `/` separates names. Joining and taking the parent work on the
bytes alone: nothing is normalized but what stands at the end of the path whose parent is taken.

The main statements are that a parent is shorter than its path, so that every climb to the root
ends, and that the ancestors of a path are the path itself and those of its parent.
-/

namespace BuildPanel

/-- One name of a path: bytes other than `/`. -/
abbrev Name := List UInt8

abbrev Path := List UInt8

namespace Path

def separator : UInt8 := 47

def self : Name := [46]

/-- The name that leads to the directory above. -/
def up : Name := [46, 46]

def ofString (s : String) : Path :=
  Text.bytes s

/-- The path as text: broken UTF-8 is shown as U+FFFD. -/
def display (p : Path) : String :=
  String.ofList (Text.decodeLossy p)

def isAbsolute (p : Path) : Bool :=
  p.head? = some separator

/-- Whether the path ends in a separator, so that it can only name a directory. -/
def isMarkedDirectory (p : Path) : Bool :=
  p.getLast? = some separator

/-- A path taken from a starting point. An absolute path does not need one. -/
def join (base p : Path) : Path :=
  if p.isAbsolute then p
  else if base = [] ∨ base.isMarkedDirectory then base ++ p
  else base ++ separator :: p

/-- The pieces between separators, those without bytes included. -/
def pieces (p : Path) : List Name :=
  p.splitOn separator

/-- The names on the way from the start of the path to its end. -/
def names (p : Path) : List Name :=
  p.pieces.filter (· ≠ [])

/-- The names that a walk along the path takes one after another. A path that ends in a separator
ends in an empty name, so that it asks for a directory. -/
def steps (p : Path) : List Name :=
  if p.isMarkedDirectory then p.names ++ [[]] else p.names

/-- A path read from its end, without the separators and the names `.` that it ends in. A single
separator, the root, stays. -/
def trimmed : List UInt8 → List UInt8
  | [47] => [47]
  | 47 :: rest => trimmed rest
  | 46 :: 47 :: rest => trimmed (47 :: rest)
  | rest => rest

theorem length_trimmed_le (r : List UInt8) : (trimmed r).length ≤ r.length := by
  fun_induction trimmed r with
  | case1 => simp
  | case2 rest _ ih => simp; omega
  | case3 rest ih => simp at ih ⊢; omega
  | case4 => simp

/-- What is trimmed has a separator at its end only if it is the root. -/
theorem eq_root_of_trimmed_eq {r rest : List UInt8} (h : trimmed r = 47 :: rest) : rest = [] := by
  fun_induction trimmed r with
  | case1 => simpa using h.symm
  | case2 s hs ih => exact ih h
  | case3 s ih => exact ih h
  | case4 s h₁ h₂ h₃ =>
    subst h
    by_cases hr : rest = []
    · exact hr
    · exact absurd rfl (h₂ rest)

/-- The path without its last name, unless it names the root or nothing. -/
def parent? (p : Path) : Option Path :=
  match trimmed p.reverse with
  | [] => none
  | [47] => none
  | r => some (trimmed (r.dropWhile (· ≠ separator))).reverse

theorem length_parent?_lt {p q : Path} (h : p.parent? = some q) : q.length < p.length := by
  unfold parent? at h
  have le := length_trimmed_le p.reverse
  split at h
  · simp at h
  · simp at h
  · rename_i r h₁ h₂
    obtain rfl := Option.some.inj h
    have le' := length_trimmed_le ((trimmed p.reverse).dropWhile (· ≠ separator))
    have lt : ((trimmed p.reverse).dropWhile (· ≠ separator)).length
        < (trimmed p.reverse).length := by
      cases hr : trimmed p.reverse with
      | nil => exact absurd hr h₁
      | cons b rest =>
        have hb : b ≠ separator := by
          intro eq
          subst eq
          have := eq_root_of_trimmed_eq hr
          subst this
          exact h₂ hr
        have : ∀ l : List UInt8, (l.dropWhile (· ≠ separator)).length ≤ l.length :=
          fun l => (List.dropWhile_sublist _).length_le
        simp only [List.dropWhile_cons, ne_eq, hb, not_false_eq_true, decide_true, if_true,
          List.length_cons]
        have := this rest
        simp only [ne_eq] at this
        omega
    simp only [List.length_reverse] at le ⊢
    omega

/-- The path and the paths above it, at most so many. -/
def climb : (limit : Nat) → Path → List Path
  | 0, _ => []
  | limit + 1, p =>
    p :: match p.parent? with
      | none => []
      | some q => climb limit q

/-- The path, its parent, the parent's parent and so on. -/
def ancestors (p : Path) : List Path :=
  climb (p.length + 1) p

theorem climb_eq_climb {m n : Nat} {p : Path} (hm : p.length < m) (hn : p.length < n) :
    climb m p = climb n p := by
  induction m generalizing n p with
  | zero => omega
  | succ m ih =>
    cases n with
    | zero => omega
    | succ n =>
      simp only [climb, List.cons.injEq, true_and]
      cases h : p.parent? with
      | none => rfl
      | some q =>
        have := length_parent?_lt h
        exact ih (by omega) (by omega)

theorem ancestors_of_parent?_eq_none {p : Path} (h : p.parent? = none) : p.ancestors = [p] := by
  simp [ancestors, climb, h]

theorem ancestors_of_parent?_eq_some {p q : Path} (h : p.parent? = some q) :
    p.ancestors = p :: q.ancestors := by
  have lt := length_parent?_lt h
  have same : climb p.length q = climb (q.length + 1) q := climb_eq_climb lt (by omega)
  rw [ancestors, climb, h]
  exact congrArg (p :: ·) same

end Path

end BuildPanel
