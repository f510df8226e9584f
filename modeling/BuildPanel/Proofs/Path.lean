import BuildPanel.Path

/-!
The names of a path and of its parent. A path has the names of its parent, some dots that are passed
over, and one name more, with more dots behind it. So whatever walks along the path walks along the
parent first.
-/

namespace BuildPanel

namespace Path

variable {p q : Path} {name : Name}

@[simp]
theorem names_nil : names [] = [] := rfl

theorem names_append (u v : Path) : names (u ++ separator :: v) = names u ++ names v := by
  unfold names pieces
  rw [List.splitOn_append_cons_self, List.filter_append]

theorem names_of_open {u : Path} (some_ : u ≠ []) (open_ : separator ∉ u) : names u = [u] := by
  unfold names pieces
  rw [List.splitOn_eq_singleton open_]
  simp [some_]

/-- A separator at the end adds no name. -/
theorem names_concat_separator (u : Path) : names (u ++ [separator]) = names u := by
  rw [names_append, names_nil, List.append_nil]

/-! ### What is trimmed -/

/-- Nothing but dots is trimmed. -/
theorem names_trimmed (r : List UInt8) :
    ∃ k, names r.reverse = names (trimmed r).reverse ++ List.replicate k self := by
  fun_induction trimmed r with
  | case1 => exact ⟨0, rfl⟩
  | case2 rest _ ih =>
    obtain ⟨k, dots⟩ := ih
    refine ⟨k, ?_⟩
    rw [List.reverse_cons, ← dots]
    exact names_concat_separator _
  | case3 rest ih =>
    obtain ⟨k, dots⟩ := ih
    refine ⟨k + 1, ?_⟩
    have dot : names [46] = [self] := rfl
    have split_ : (46 :: 47 :: rest).reverse = rest.reverse ++ separator :: [46] := by
      simp [separator]
    rw [List.reverse_cons] at dots
    rw [split_, names_append, dot, ← names_concat_separator rest.reverse]
    rw [separator, dots, List.append_assoc, List.replicate_succ']
  | case4 => exact ⟨0, by simp⟩

theorem trimmed_suffix (r : List UInt8) : trimmed r <:+ r := by
  fun_induction trimmed r with
  | case1 => exact List.suffix_refl _
  | case2 rest _ ih => exact ih.trans (List.suffix_cons _ _)
  | case3 rest ih => exact ih.trans (List.suffix_cons _ _)
  | case4 => exact List.suffix_refl _

/-- No dot behind a separator is left at the end. -/
theorem trimmed_ne_dot (r rest : List UInt8) : trimmed r ≠ 46 :: 47 :: rest := by
  fun_induction trimmed r with
  | case1 => simp
  | case2 _ _ ih => exact ih
  | case3 _ ih => exact ih
  | case4 r _ _ other =>
    rintro rfl
    exact other rest rfl

/-! ### The parent -/

/-- What stands behind the last separator of a path that is read from its end. -/
def lastOf (r : List UInt8) : Name :=
  (r.takeWhile (· ≠ separator)).reverse

/-- What stands in front of it, the separator included. -/
def beforeLast (r : List UInt8) : List UInt8 :=
  r.dropWhile (· ≠ separator)

theorem lastOf_append_beforeLast (r : List UInt8) : (lastOf r).reverse ++ beforeLast r = r := by
  rw [lastOf, List.reverse_reverse]
  exact List.takeWhile_append_dropWhile

theorem lastOf_open (r : List UInt8) : separator ∉ lastOf r := by
  intro inside
  have other := List.all_eq_true.1 List.all_takeWhile _ (List.mem_reverse.1 inside)
  simp at other

theorem beforeLast_cases (r : List UInt8) :
    beforeLast r = [] ∨ ∃ d, beforeLast r = separator :: d := by
  unfold beforeLast
  have first := List.head?_dropWhile_not (· ≠ separator) r
  cases before : r.dropWhile (· ≠ separator) with
  | nil => exact .inl rfl
  | cons b d =>
    rw [before] at first
    exact .inr ⟨d, by simpa using first⟩

theorem names_reverse {r : List UInt8} (ends : lastOf r ≠ []) :
    names r.reverse = names (beforeLast r).reverse ++ [lastOf r] := by
  have alone := names_of_open ends (lastOf_open r)
  have whole := congrArg List.reverse (lastOf_append_beforeLast r)
  rw [List.reverse_append, List.reverse_reverse] at whole
  rcases beforeLast_cases r with none_ | ⟨d, before⟩
  · rw [← whole, none_, List.reverse_nil, List.nil_append, alone, names_nil, List.nil_append]
  · rw [← whole, before, List.reverse_cons, List.append_assoc, List.singleton_append, names_append,
      alone, names_concat_separator]

/-- What a path has that its parent lacks. -/
structure Extends (p q : Path) (name : Name) : Prop where
  /-- One name more, with dots passed over in front of it and behind it. -/
  names : ∃ j k, p.names = q.names ++ List.replicate j self ++ name :: List.replicate k self
  /-- The name itself is a dot only if the parent is the empty path. -/
  dot : name = self → q = []
  starts : q <+: p

theorem extends_parent? (h : p.parent? = some q) : ∃ name, Extends p q name := by
  unfold parent? at h
  have noDot := trimmed_ne_dot p.reverse
  have root := fun rest => @eq_root_of_trimmed_eq p.reverse rest
  obtain ⟨k, behind⟩ := names_trimmed p.reverse
  have whole := trimmed_suffix p.reverse
  generalize trimmed p.reverse = r at *
  split at h
  · cases h
  · cases h
  · next some_ notRoot =>
    obtain rfl : (trimmed (beforeLast r)).reverse = q := Option.some.inj h
    have ends : lastOf r ≠ [] := by
      cases r with
      | nil => exact absurd rfl some_
      | cons b rest =>
        have other : b ≠ separator := by
          rintro rfl
          exact notRoot (by rw [root rest rfl]; rfl)
        simp [lastOf, other]
    obtain ⟨j, front⟩ := names_trimmed (beforeLast r)
    have above := trimmed_suffix (beforeLast r)
    refine ⟨lastOf r, ⟨⟨j, k, ?_⟩, ?_, ?_⟩⟩
    · rw [List.reverse_reverse] at behind
      rw [behind, names_reverse ends, front]
      simp
    · intro dot
      have parts := lastOf_append_beforeLast r
      rw [dot] at parts
      rcases beforeLast_cases r with none_ | ⟨d, before⟩
      · rw [none_]
        rfl
      · rw [before] at parts
        exact absurd parts.symm (noDot d)
    · have inside := (above.trans (List.dropWhile_suffix _)).trans whole
      simpa using List.reverse_prefix.2 inside

end Path

end BuildPanel
