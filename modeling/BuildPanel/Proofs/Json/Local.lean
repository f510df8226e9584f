import Mathlib.Data.List.TakeWhile
import Mathlib.Tactic.SplitIfs
import BuildPanel.Json.Reader

/-!
What a reader of JSON looks at. A reader that succeeds has taken some bytes, and has looked at no
others but perhaps the one behind them: in front of other bytes, the first of which is the same, it
takes the same bytes for the same value. Only numbers need the byte behind them.
-/

namespace BuildPanel.Json

variable {α β : Type} {s rest : Input}

/-- A reader depends on the bytes that it takes and on the next one alone. -/
def Local (read : Reader α) : Prop :=
  ∀ s value rest, read s = .ok (value, rest) →
    ∃ used, s = used ++ rest ∧ ∀ t, t.head? = rest.head? → read (used ++ t) = .ok (value, t)

/-- The same of what only passes over bytes. -/
def Skips (pass : Input → Except Failure Input) : Prop :=
  Local fun s => (pass s).map ((), ·)

theorem map_eq_ok {f : α → β} {x : Except Failure α} {b : β} :
    x.map f = .ok b ↔ ∃ a, x = .ok a ∧ f a = b := by
  cases x <;> simp [Except.map]

theorem head?_append_congr {t : Input} (used : Input) (h : t.head? = rest.head?) :
    (used ++ t).head? = (used ++ rest).head? := by
  cases used with
  | nil => exact h
  | cons => rfl

theorem skips_iff {pass : Input → Except Failure Input} : Skips pass ↔ ∀ s rest,
    pass s = .ok rest →
      ∃ used, s = used ++ rest ∧ ∀ t, t.head? = rest.head? → pass (used ++ t) = .ok t := by
  have passes : ∀ s rest, (pass s).map (((), ·) : Input → Unit × Input) = .ok ((), rest) ↔
      pass s = .ok rest := by
    intro s rest
    cases pass s <;> simp [Except.map]
  constructor
  · intro h s rest ok
    obtain ⟨used, split_, takes⟩ := h s () rest ((passes s rest).2 ok)
    exact ⟨used, split_, fun t same => (passes _ t).1 (takes t same)⟩
  · intro h s _ rest ok
    obtain ⟨used, split_, takes⟩ := h s rest ((passes s rest).1 ok)
    exact ⟨used, split_, fun t same => (passes _ t).2 (takes t same)⟩

/-! ### How readers are put together -/

namespace Local

theorem pure (value : α) : Local fun s => .ok (value, s) := by
  rintro s _ _ ⟨⟩
  exact ⟨[], rfl, fun t _ => rfl⟩

theorem error (f : Input → Failure) :
    Local fun s => (.error (f s) : Except Failure (α × Input)) :=
  nofun

/-- Only what is read counts, not the faults. -/
theorem congr {read read' : Reader α} (h : Local read)
    (eq : ∀ s found, read' s = .ok found ↔ read s = .ok found) : Local read' := by
  intro s value rest ok
  obtain ⟨used, rfl, takes⟩ := h s value rest ((eq _ _).1 ok)
  exact ⟨used, rfl, fun t same => (eq _ _).2 (takes t same)⟩

/-- One reader after another; the faults of the first one are blamed on something. -/
theorem chain {first : Reader α} {next : α → Reader β} {whole : Reader β}
    (hfirst : Local first) (blame : Failure → Failure)
    (eq : ∀ s, whole s = match first s with
      | .error f => .error (blame f)
      | .ok (a, r) => next a r)
    (hnext : ∀ a, Local (next a)) : Local whole := by
  intro s value rest h
  rw [eq] at h
  cases read : first s with
  | error f =>
    rw [read] at h
    cases h
  | ok found =>
    rw [read] at h
    obtain ⟨a, r⟩ := found
    obtain ⟨used, rfl, takes⟩ := hfirst s a r read
    obtain ⟨more, rfl, takes'⟩ := hnext a r value rest h
    refine ⟨used ++ more, (List.append_assoc _ _ _).symm, ?_⟩
    intro t same
    rw [eq, List.append_assoc, takes _ (head?_append_congr more same)]
    exact takes' t same

/-- One byte, and what depends on it. -/
theorem afterByte {next : UInt8 → Reader α} {whole : Reader α} (fault : Failure)
    (eq : ∀ s, whole s = match s with | [] => .error fault | b :: r => next b r)
    (hnext : ∀ b, Local (next b)) : Local whole := by
  intro s value rest h
  rw [eq] at h
  cases s with
  | nil => cases h
  | cons b r =>
    obtain ⟨used, rfl, takes⟩ := hnext b r value rest h
    refine ⟨b :: used, rfl, ?_⟩
    intro t same
    rw [eq, List.cons_append]
    exact takes t same

/-- What depends on the next byte, whether or not it is taken. -/
theorem peek {next : Option UInt8 → Reader α} {whole : Reader α}
    (eq : ∀ s, whole s = next s.head? s) (hnext : ∀ b, Local (next b)) : Local whole := by
  intro s value rest h
  rw [eq] at h
  obtain ⟨used, rfl, takes⟩ := hnext _ s value rest h
  refine ⟨used, rfl, ?_⟩
  intro t same
  rw [eq, head?_append_congr used same]
  exact takes t same

/-- The next byte, if there is one, and what comes behind it. -/
theorem drop {read : Reader α} (h : Local read) : Local fun s => read (s.drop 1) := by
  intro s value rest ok
  obtain ⟨used, split_, takes⟩ := h _ value rest ok
  cases s with
  | nil =>
    obtain ⟨rfl, rfl⟩ := List.append_eq_nil_iff.1 split_.symm
    refine ⟨[], rfl, ?_⟩
    intro t same
    obtain rfl := List.head?_eq_none_iff.1 same
    exact ok
  | cons b s =>
    obtain rfl : s = used ++ rest := split_
    exact ⟨b :: used, rfl, takes⟩

theorem map {read : Reader α} (h : Local read) (f : α → β) :
    Local fun s => (read s).map fun (value, rest) => (f value, rest) :=
  h.chain id (fun s => by rcases read s with fault | ⟨a, r⟩ <;> rfl) fun a => Local.pure (f a)

end Local

namespace Skips

variable {pass : Input → Except Failure Input}

theorem pure : Skips .ok :=
  Local.pure ()

theorem error (f : Input → Failure) : Skips fun s => .error (f s) :=
  nofun

/-- Something passed over in front of what is read. -/
theorem before {next whole : Reader α} (h : Skips pass) (blame : Failure → Failure)
    (eq : ∀ s, whole s = match pass s with
      | .error f => .error (blame f)
      | .ok r => next r)
    (hnext : Local next) : Local whole := by
  refine Local.chain h blame ?_ fun _ => hnext
  intro s
  rw [eq]
  cases pass s <;> rfl

/-- A value that is read from what has been passed over. -/
theorem giving (h : Skips pass) (value : α) : Local fun s => (pass s).map (value, ·) :=
  h.before id (fun s => by cases pass s <;> rfl) (Local.pure value)

theorem chain {next whole : Input → Except Failure Input} (h : Skips pass)
    (blame : Failure → Failure)
    (eq : ∀ s, whole s = match pass s with
      | .error f => .error (blame f)
      | .ok r => next r)
    (hnext : Skips next) : Skips whole := by
  refine h.before blame ?_ hnext
  intro s
  rw [eq]
  cases pass s <;> rfl

theorem peek {next : Option UInt8 → Input → Except Failure Input}
    {whole : Input → Except Failure Input} (eq : ∀ s, whole s = next s.head? s)
    (hnext : ∀ b, Skips (next b)) : Skips whole := by
  refine Local.peek ?_ hnext
  intro s
  rw [eq]

theorem drop (h : Skips pass) : Skips fun s => pass (s.drop 1) :=
  Local.drop h

theorem afterByte {next : UInt8 → Input → Except Failure Input}
    {whole : Input → Except Failure Input} (fault : Failure)
    (eq : ∀ s, whole s = match s with | [] => .error fault | b :: r => next b r)
    (hnext : ∀ b, Skips (next b)) : Skips whole := by
  refine Local.afterByte fault ?_ hnext
  intro s
  rw [eq]
  cases s <;> rfl

end Skips

/-! ### White space and digits -/

/-- A run of bytes of a class ends in front of the byte behind it. -/
theorem skips_run (p : UInt8 → Bool) : Skips fun s => .ok (s.dropWhile p) := by
  refine skips_iff.2 ?_
  rintro s _ ⟨⟩
  have inside : ∀ b ∈ s.takeWhile p, p b = true := fun b => List.mem_takeWhile_imp
  have boundary := List.head?_dropWhile_not p s
  refine ⟨s.takeWhile p, List.takeWhile_append_dropWhile.symm, ?_⟩
  intro t same
  rw [← same] at boundary
  rw [List.dropWhile_append_of_pos inside]
  cases t with
  | nil => rfl
  | cons b t =>
    refine congrArg Except.ok (List.dropWhile_cons_of_neg ?_)
    simpa using boundary

theorem skips_space : Skips fun s => .ok (skipSpace s) :=
  skips_run isSpace

/-- White space, one byte, and what depends on it. -/
theorem Local.afterSpace {next : UInt8 → Reader α} {whole : Reader α} (fault : Failure)
    (eq : ∀ s, whole s = match skipSpace s with | [] => .error fault | b :: r => next b r)
    (hnext : ∀ b, Local (next b)) : Local whole :=
  skips_space.before id eq (Local.afterByte fault (fun _ => rfl) hnext)

theorem Skips.afterSpace {next : UInt8 → Input → Except Failure Input}
    {whole : Input → Except Failure Input} (fault : Failure)
    (eq : ∀ s, whole s = match skipSpace s with | [] => .error fault | b :: r => next b r)
    (hnext : ∀ b, Skips (next b)) : Skips whole := by
  refine Local.afterSpace fault ?_ hnext
  intro s
  rw [eq]
  cases skipSpace s <;> rfl

/-- White space, and what depends on the byte behind it, whether or not that byte is taken. -/
theorem Local.peekSpace {next : UInt8 → Reader α} {whole : Reader α} (fault : Failure)
    (eq : ∀ s, whole s = match skipSpace s with | [] => .error fault | b :: r => next b (b :: r))
    (hnext : ∀ b, Local (next b)) : Local whole := by
  have here : Local fun s => match s with | [] => .error fault | b :: r => next b (b :: r) := by
    refine @Local.peek _ (fun b s => match b with
      | none => .error fault
      | some b => next b s) _ ?_ ?_
    · intro s
      cases s <;> rfl
    · rintro (_ | b)
      · exact Local.error _
      · exact hnext b
  exact skips_space.before id eq here

/-! ### Readers that take a byte -/

theorem Local.length_le {read : Reader α} {value : α} (h : Local read)
    (ok : read s = .ok (value, rest)) : rest.length ≤ s.length := by
  obtain ⟨used, rfl, -⟩ := h s value rest ok
  simp

theorem length_skipSpace_le (s : Input) : (skipSpace s).length ≤ s.length :=
  (List.dropWhile_sublist isSpace).length_le

/-- A reader that takes one byte at the least. -/
structure Eager (read : Reader α) : Prop where
  near : Local read
  less : ∀ s value rest, read s = .ok (value, rest) → rest.length < s.length

namespace Eager

theorem afterByte {next : UInt8 → Reader α} {whole : Reader α} (fault : Failure)
    (eq : ∀ s, whole s = match s with | [] => .error fault | b :: r => next b r)
    (hnext : ∀ b, Local (next b)) : Eager whole := by
  refine ⟨Local.afterByte fault eq hnext, ?_⟩
  intro s value rest ok
  rw [eq] at ok
  cases s with
  | nil => cases ok
  | cons b r => exact Nat.lt_succ_of_le ((hnext b).length_le ok)

theorem afterSpace {next : UInt8 → Reader α} {whole : Reader α} (fault : Failure)
    (eq : ∀ s, whole s = match skipSpace s with | [] => .error fault | b :: r => next b r)
    (hnext : ∀ b, Local (next b)) : Eager whole := by
  refine ⟨Local.afterSpace fault eq hnext, ?_⟩
  intro s value rest ok
  rw [eq] at ok
  exact Nat.lt_of_lt_of_le ((afterByte fault (fun _ => rfl) hnext).less _ _ _ ok)
    (length_skipSpace_le s)

theorem map {read : Reader α} (h : Eager read) (f : α → β) :
    Eager fun s => (read s).map fun (value, rest) => (f value, rest) := by
  refine ⟨h.near.map f, ?_⟩
  intro s value rest ok
  obtain ⟨⟨a, r⟩, read, eq⟩ := map_eq_ok.1 ok
  cases eq
  exact h.less s a rest read

end Eager

/-! ### Steps -/

/-- Steps of a reader, one after another, until one of them comes to an end. The list bounds their
number: each of them takes an element off it. -/
def steps {σ : Type} (step : σ → Reader (σ ⊕ α)) (few : Input → Failure) :
    Input → σ → Reader α
  | [], _, s => .error (few s)
  | _ :: bound, x, s =>
    match step x s with
    | .error f => .error f
    | .ok (.inl x', r) => steps step few bound x' r
    | .ok (.inr a, r) => .ok (a, r)

section Steps

variable {σ : Type} {step : σ → Reader (σ ⊕ α)} {few : Input → Failure} {bound : Input} {x : σ}
  {a : α}

/-- What is left when the last step has been taken. -/
theorem steps_ends {P : Input → Prop} (ends : ∀ x s a r, step x s = .ok (.inr a, r) → P r)
    (h : steps step few bound x s = .ok (a, rest)) : P rest := by
  induction bound generalizing x s with
  | nil => cases h
  | cons _ bound ih =>
    unfold steps at h
    rcases taken : step x s with f | ⟨x' | a', r⟩
    · rw [taken] at h
      cases h
    · rw [taken] at h
      exact ih h
    · rw [taken] at h
      cases h
      exact ends x s a rest taken

/-- Steps are taken again in front of other bytes, with any bound that is long enough. If the last
step may take no byte at all, the bound has to be longer than what is taken. -/
theorem steps_again {slack : Nat} (one : slack ≤ 1) (near : ∀ x, Local (step x))
    (goes : ∀ x s x' r, step x s = .ok (.inl x', r) → r.length < s.length)
    (ends : ∀ x s a r, step x s = .ok (.inr a, r) → r.length + slack ≤ s.length)
    (h : steps step few bound x s = .ok (a, rest)) : ∃ used, s = used ++ rest ∧
      ∀ t bound', used.length < bound'.length + slack → t.head? = rest.head? →
        steps step few bound' x (used ++ t) = .ok (a, t) := by
  induction bound generalizing x s with
  | nil => cases h
  | cons _ bound ih =>
    unfold steps at h
    rcases taken : step x s with f | ⟨x' | a', r⟩
    · rw [taken] at h
      cases h
    · rw [taken] at h
      have less := goes x s x' r taken
      obtain ⟨used, rfl, takes⟩ := near x s _ r taken
      obtain ⟨more, rfl, takes'⟩ := ih h
      refine ⟨used ++ more, (List.append_assoc _ _ _).symm, ?_⟩
      intro t bound' long same
      simp only [List.length_append] at less long
      cases bound' with
      | nil =>
        rw [List.length_nil] at long
        omega
      | cons _ bound' =>
        have enough : more.length < bound'.length + slack := by
          rw [List.length_cons] at long
          omega
        rw [List.append_assoc, steps, takes _ (head?_append_congr more same)]
        exact takes' t bound' enough same
    · rw [taken] at h
      cases h
      have less := ends x s a rest taken
      obtain ⟨used, rfl, takes⟩ := near x s _ rest taken
      refine ⟨used, rfl, ?_⟩
      intro t bound' long same
      simp only [List.length_append] at less
      cases bound' with
      | nil =>
        rw [List.length_nil] at long
        omega
      | cons _ bound' => rw [steps, takes t same]

/-- Steps that take a byte each are taken again with as many as there are bytes. -/
theorem Eager.again (h : ∀ x, Eager (step x)) (ok : steps step few bound x s = .ok (a, rest)) :
    ∃ used, s = used ++ rest ∧ ∀ t, t.head? = rest.head? →
      Json.steps step few (used ++ t) x (used ++ t) = .ok (a, t) := by
  obtain ⟨used, rfl, takes⟩ := steps_again (le_refl 1) (fun x => (h x).near)
    (fun x s _ r => (h x).less s _ r) (fun x s _ r => (h x).less s _ r) ok
  refine ⟨used, rfl, fun t same => takes t _ ?_ same⟩
  rw [List.length_append]
  omega

theorem Eager.steps (h : ∀ x, Eager (step x)) (few : Input → Failure) (start : σ) :
    Local fun s => steps step few s start s :=
  fun _ _ _ ok => Eager.again h ok

/-- Steps of which all but the last take a byte are taken again with one more than there are
bytes. -/
theorem Local.again (near : ∀ x, Local (step x))
    (goes : ∀ x s x' r, step x s = .ok (.inl x', r) → r.length < s.length) (b : UInt8)
    (ok : steps step few bound x s = .ok (a, rest)) :
    ∃ used, s = used ++ rest ∧ ∀ t, t.head? = rest.head? →
      Json.steps step few (b :: (used ++ t)) x (used ++ t) = .ok (a, t) := by
  obtain ⟨used, rfl, takes⟩ := steps_again (Nat.zero_le 1) near goes
    (fun x s _ r => (near x).length_le) ok
  refine ⟨used, rfl, fun t same => takes t _ ?_ same⟩
  rw [List.length_cons, List.length_append]
  omega

theorem Local.steps (near : ∀ x, Local (step x))
    (goes : ∀ x s x' r, step x s = .ok (.inl x', r) → r.length < s.length)
    (few : Input → Failure) (start : σ) (b : UInt8) :
    Local fun s => steps step few (b :: s) start s :=
  fun _ _ _ ok => Local.again near goes b ok

/-- Steps that come to an end, if only there may be enough of them. -/
inductive Finishes (step : σ → Reader (σ ⊕ α)) : σ → Input → α → Input → Prop where
  | last {x : σ} {s : Input} {a : α} {r : Input} (taken : step x s = .ok (.inr a, r)) :
    Finishes step x s a r
  | after {x x' : σ} {s r : Input} {a : α} {rest : Input} (taken : step x s = .ok (.inl x', r))
    (more : Finishes step x' r a rest) : Finishes step x s a rest

theorem finishes_of_steps (h : steps step few bound x s = .ok (a, rest)) :
    Finishes step x s a rest := by
  induction bound generalizing x s with
  | nil => cases h
  | cons _ bound ih =>
    unfold steps at h
    rcases taken : step x s with f | ⟨x' | a', r⟩
    · rw [taken] at h
      cases h
    · rw [taken] at h
      exact .after taken (ih h)
    · rw [taken] at h
      cases h
      exact .last taken

theorem Finishes.enough (h : Finishes step x s a rest) (few : Input → Failure) :
    ∃ bound, steps step few bound x s = .ok (a, rest) := by
  induction h with
  | last taken =>
    refine ⟨[0], ?_⟩
    rw [Json.steps, taken]
  | after taken _ ih =>
    obtain ⟨bound, finished⟩ := ih
    refine ⟨0 :: bound, ?_⟩
    rw [Json.steps, taken]
    exact finished

theorem Eager.steps_of_finishes (h : ∀ x, Eager (step x)) (few : Input → Failure)
    (finishes : Finishes step x s a rest) : Json.steps step few s x s = .ok (a, rest) := by
  obtain ⟨bound, finished⟩ := finishes.enough few
  obtain ⟨used, rfl, takes⟩ := Eager.again h finished
  exact takes rest rfl

theorem Local.steps_of_finishes (near : ∀ x, Local (step x))
    (goes : ∀ x s x' r, step x s = .ok (.inl x', r) → r.length < s.length)
    (few : Input → Failure) (b : UInt8) (finishes : Finishes step x s a rest) :
    Json.steps step few (b :: s) x s = .ok (a, rest) := by
  obtain ⟨bound, finished⟩ := finishes.enough few
  obtain ⟨used, rfl, takes⟩ := Local.again near goes b finished
  exact takes rest rfl

end Steps

end BuildPanel.Json
