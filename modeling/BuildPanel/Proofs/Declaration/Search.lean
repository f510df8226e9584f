import BuildPanel.Proofs.Declaration.Grammar
import BuildPanel.Proofs.Options.Members

/-!
Searching a text for declarations. An occurrence is a spelling with the place where it stands. The
search goes through the text from the left, takes the occurrence that begins first and goes on
behind it; `Search` says so without saying how the occurrence is found.

The declarations of a text are those that the search takes, whatever the text: every option comes
from a declaration that stands there, and what is passed over overlaps one that has been taken
before it.
-/

namespace BuildPanel

namespace Declaration

/-- A spelling at a place of a text. -/
@[ext]
structure Occurrence where
  start : Nat
  spelling : Spelling

namespace Occurrence

def stop (o : Occurrence) : Nat :=
  o.start + o.spelling.text.length

/-- The spelling stands at its place in a text. -/
def In (o : Occurrence) (s : List Char) : Prop :=
  o.spelling.text <+: s.drop o.start

/-- The option that is declared, with its entry. -/
def member (o : Occurrence) : String × OptionEntry :=
  o.spelling.declaration.member

variable {o o' : Occurrence} {s : List Char}

theorem In.drop_eq (h : o.In s) : s.drop o.start = o.spelling.text ++ s.drop o.stop := by
  have whole := List.prefix_iff_eq_append.1 h
  rw [List.drop_drop] at whole
  exact whole.symm

theorem start_lt_stop (o : Occurrence) : o.start < o.stop := by
  have keyword_ : keyword.length = 7 := rfl
  simp only [stop, Spelling.text, List.length_append]
  omega

theorem In.stop_le (h : o.In s) : o.stop ≤ s.length := by
  have long := h.length_le
  have some_ := o.start_lt_stop
  simp only [stop, List.length_drop] at long some_ ⊢
  omega

/-- At most one declaration begins at a place. -/
theorem In.eq_of_start (h : o.In s) (h' : o'.In s) (same : o.start = o'.start) : o = o' := by
  have texts := h.drop_eq
  rw [same, h'.drop_eq] at texts
  obtain ⟨spelling, -⟩ := Spelling.text_append_inj texts
  exact Occurrence.ext same spelling.symm

theorem start?_of_in (h : o.In s) :
    start? (s.drop o.start) = some (o.spelling.declaration, s.drop o.stop) := by
  rw [h.drop_eq]
  exact o.spelling.start?_text _

theorem exists_of_start? {i : Nat} {d : Declaration} {rest : List Char}
    (found : start? (s.drop i) = some (d, rest)) :
    ∃ o : Occurrence, o.start = i ∧ o.In s ∧ o.spelling.declaration = d ∧ rest = s.drop o.stop := by
  obtain ⟨w, declares, text⟩ := Spelling.exists_of_start? found
  refine ⟨⟨i, w⟩, rfl, ⟨rest, text.symm⟩, declares, ?_⟩
  have after := congrArg (List.drop w.text.length) text
  rw [List.drop_drop, List.drop_left] at after
  exact after.symm

end Occurrence

/-- What a search from a place of a text takes: the occurrence that begins first, and then what a
search from its end takes. -/
inductive Search (s : List Char) : Nat → List Occurrence → Prop where
  | ended {i : Nat} (none_ : ∀ o : Occurrence, o.In s → o.start < i) : Search s i []
  | found {i : Nat} {o : Occurrence} {later : List Occurrence} (isIn : o.In s)
      (behind : i ≤ o.start)
      (first : ∀ o' : Occurrence, o'.In s → i ≤ o'.start → o.start ≤ o'.start)
      (rest : Search s o.stop later) : Search s i (o :: later)

namespace Search

variable {s : List Char} {i j : Nat} {found found' : List Occurrence} {o : Occurrence}

/-- A search may begin later if nothing is passed ended. -/
theorem of_later (h : Search s j found) (le : i ≤ j)
    (none_ : ∀ o : Occurrence, o.In s → i ≤ o.start → j ≤ o.start) : Search s i found := by
  cases h with
  | ended none' =>
    refine .ended fun o isIn => ?_
    have before := none' o isIn
    rcases Nat.lt_or_ge o.start i with lt | ge
    · exact lt
    · have := none_ o isIn ge
      omega
  | found isIn behind first rest =>
    refine .found isIn (by omega) (fun o' isIn' ge => ?_) rest
    exact first o' isIn' (none_ o' isIn' ge)

/-- A search may begin as late as it takes something first. -/
theorem to_later (h : Search s i found) (le : i ≤ j) (behind : ∀ o ∈ found, j ≤ o.start) :
    Search s j found := by
  cases h with
  | ended none_ =>
    refine .ended fun o isIn => ?_
    have := none_ o isIn
    omega
  | found isIn _ first rest =>
    refine .found isIn (behind _ List.mem_cons_self) (fun o' isIn' ge => ?_) rest
    exact first o' isIn' (Nat.le_trans le ge)

/-- The search of the text finds what is declared in it. -/
theorem exists_search (s : List Char) (i : Nat) : ∃ found, Search s i found ∧
    scan (s.drop i) = found.map fun o => o.spelling.declaration := by
  generalize rest : s.drop i = t
  fun_induction scan t generalizing i with
  | case1 t d r start ih =>
    subst rest
    obtain ⟨o, rfl, isIn, rfl, rfl⟩ := Occurrence.exists_of_start? start
    obtain ⟨later, search, scanned⟩ := ih o.stop rfl
    refine ⟨o :: later, .found isIn (Nat.le_refl _) (fun _ _ ge => ge) search, ?_⟩
    rw [scanned, List.map_cons]
  | case2 start =>
    refine ⟨[], .ended fun o isIn => ?_, rfl⟩
    have long := isIn.stop_le
    have some_ := o.start_lt_stop
    have short := List.drop_eq_nil_iff.1 rest
    omega
  | case3 c tail start ih =>
    have next : s.drop (i + 1) = tail := by
      rw [← List.drop_drop, rest]
      rfl
    obtain ⟨found, search, scanned⟩ := ih (i + 1) next
    refine ⟨found, search.of_later (Nat.le_succ i) fun o isIn ge => ?_, scanned⟩
    -- No declaration begins where none has been found.
    rcases Nat.lt_or_eq_of_le ge with lt | rfl
    · exact lt
    · have here := Occurrence.start?_of_in isIn
      rw [rest, start] at here
      cases here

/-- What a search takes is determined by the text. -/
theorem unique (h : Search s i found) (h' : Search s i found') : found = found' := by
  induction h generalizing found' with
  | ended none_ =>
    cases h' with
    | ended => rfl
    | found isIn behind _ _ =>
      have := none_ _ isIn
      omega
  | found isIn behind first rest ih =>
    cases h' with
    | ended none_ =>
      have := none_ _ isIn
      omega
    | found isIn' behind' first' rest' =>
      have le := first _ isIn' behind'
      have ge := first' _ isIn behind
      obtain rfl := isIn.eq_of_start isIn' (Nat.le_antisymm le ge)
      rw [ih rest']

theorem isIn_of_mem (h : Search s i found) (taken : o ∈ found) : o.In s := by
  induction h with
  | ended => cases taken
  | found isIn _ _ _ ih =>
    rcases List.mem_cons.1 taken with rfl | later
    · exact isIn
    · exact ih later

theorem le_start (h : Search s i found) (taken : o ∈ found) : i ≤ o.start := by
  induction h with
  | ended => cases taken
  | @found i o' later _ behind _ _ ih =>
    rcases List.mem_cons.1 taken with rfl | later
    · exact behind
    · have := ih later
      have := o'.start_lt_stop
      omega

/-- Something is taken no later than any declaration begins. -/
theorem exists_start_le (h : Search s i found) (isIn : o.In s) (behind : i ≤ o.start) :
    ∃ o' ∈ found, o'.start ≤ o.start := by
  cases h with
  | ended none_ =>
    have := none_ o isIn
    omega
  | found _ _ first _ => exact ⟨_, List.mem_cons_self, first o isIn behind⟩

/-- What is taken stands in its order, without overlapping. -/
theorem pairwise (h : Search s i found) : found.Pairwise fun o o' => o.stop ≤ o'.start := by
  induction h with
  | ended => exact .nil
  | found _ _ _ rest ih => exact .cons (fun _ later => rest.le_start later) ih

/-- What is not taken overlaps something that has been taken before. -/
theorem taken_or_overlaps (h : Search s i found) (isIn : o.In s) (behind : i ≤ o.start) :
    o ∈ found ∨ ∃ o' ∈ found, o'.start < o.start ∧ o.start < o'.stop := by
  induction h with
  | ended none_ =>
    have := none_ o isIn
    omega
  | @found i o' later isIn' _ first _ ih =>
    have le := first o isIn behind
    rcases Nat.lt_or_ge o.start o'.stop with inside | after
    · rcases Nat.lt_or_eq_of_le le with lt | same
      · exact .inr ⟨o', List.mem_cons_self, lt, inside⟩
      · rw [isIn'.eq_of_start isIn same]
        exact .inl List.mem_cons_self
    · rcases ih after with taken | ⟨o'', taken, overlaps⟩
      · exact .inl (List.mem_cons_of_mem _ taken)
      · exact .inr ⟨o'', List.mem_cons_of_mem _ taken, overlaps⟩

end Search

end Declaration

end BuildPanel
