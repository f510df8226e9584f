import BuildPanel.Declaration

/-!
The grammar of option declarations. A `Spelling` is a declaration as it is written, with the white
space between its parts. A text begins with at most one spelling, and `Declaration.start?` finds it
iff there is one.

That a spelling cannot be read in two ways rests on the classes of its parts: no character is both a
word character and white space, and the quotes and the parenthesis that end a part do not belong to
its class.
-/

namespace BuildPanel

namespace Text

theorem CodeRanges.exists_of_has {ranges : CodeRanges} {n : Nat} (h : ranges.has n = true) :
    ∃ r ∈ ranges, r.1 ≤ n ∧ n ≤ r.2 := by
  induction ranges with
  | nil => cases h
  | cons r rest ih =>
    simp only [has] at h
    split at h
    · cases h
    · next above =>
      rcases Bool.or_eq_true _ _ ▸ h with inside | later
      · exact ⟨r, List.mem_cons_self, by omega, of_decide_eq_true inside⟩
      · obtain ⟨r', there, bounds⟩ := ih later
        exact ⟨r', List.mem_cons_of_mem _ there, bounds⟩

theorem not_isWord_of_isBlank {c : Char} (blank : isBlank c = true) : isWord c = false := by
  have apart : ∀ b ∈ blankRanges, ∀ w ∈ wordRanges, b.2 < w.1 ∨ w.2 < b.1 := by decide +kernel
  cases word : isWord c with
  | false => rfl
  | true =>
    obtain ⟨b, isRange, low, high⟩ := CodeRanges.exists_of_has blank
    obtain ⟨w, isRange', low', high'⟩ := CodeRanges.exists_of_has word
    have := apart b isRange w isRange'
    omega

end Text

namespace Declaration

open Text

/-! ### Runs of one class -/

/-- A text that is not empty, all of whose characters belong to a class. -/
structure IsRun (p : Char → Bool) (t : List Char) : Prop where
  ne_nil : t ≠ []
  all : ∀ c ∈ t, p c = true

instance (p : Char → Bool) (t : List Char) : Decidable (IsRun p t) :=
  decidable_of_iff (t ≠ [] ∧ t.all p = true)
    ⟨fun h => ⟨h.1, List.all_eq_true.1 h.2⟩, fun h => ⟨h.ne_nil, List.all_eq_true.2 h.all⟩⟩

/-- A class does not go on in a text. -/
def Stops (p : Char → Bool) (s : List Char) : Prop :=
  ∀ c ∈ s.head?, p c = false

theorem stops_cons {p : Char → Bool} {c : Char} (h : p c = false) (s : List Char) :
    Stops p (c :: s) := by
  rintro _ ⟨⟩
  exact h

/-- A run of one class stops another class that has no character in common with it. -/
theorem IsRun.stops {p q : Char → Bool} {t : List Char} (h : IsRun p t)
    (apart : ∀ c, p c = true → q c = false) (s : List Char) : Stops q (t ++ s) := by
  cases t with
  | nil => exact absurd rfl h.ne_nil
  | cons c t => exact stops_cons (apart c (h.all c List.mem_cons_self)) (t ++ s)

theorem run?_eq_some_iff {p : Char → Bool} {s t r : List Char} :
    run? p s = some (t, r) ↔ IsRun p t ∧ Stops p r ∧ s = t ++ r := by
  constructor
  · intro h
    have whole := List.takeWhile_append_dropWhile (p := p) (l := s)
    unfold run? at h
    split at h
    · cases h
    · next ne =>
      cases h
      refine ⟨⟨ne, fun c inside => ?_⟩, ?_, whole.symm⟩
      · exact List.all_eq_true.1 List.all_takeWhile c inside
      · intro c first
        have := List.head?_dropWhile_not p s
        rw [first] at this
        simpa using this
  · rintro ⟨run, stops, rfl⟩
    have taken : (t ++ r).takeWhile p = t := by
      rw [List.takeWhile_append_of_pos run.all]
      cases r with
      | nil => simp
      | cons c r => simp [stops c rfl]
    have left : (t ++ r).dropWhile p = r := by
      rw [List.dropWhile_append_of_pos run.all]
      cases r with
      | nil => rfl
      | cons c r => simp [stops c rfl]
    unfold run?
    split
    · next empty => exact absurd (taken.symm.trans empty) run.ne_nil
    · next other => rw [taken, left]

theorem IsRun.run?_append {p : Char → Bool} {t r : List Char} (h : IsRun p t)
    (stops : Stops p r) : run? p (t ++ r) = some (t, r) :=
  run?_eq_some_iff.2 ⟨h, stops, rfl⟩

/-- Where a run ends is determined by the text. -/
theorem IsRun.append_inj {p : Char → Bool} {t t' r r' : List Char} (h : IsRun p t)
    (h' : IsRun p t') (stops : Stops p r) (stops' : Stops p r') (same : t ++ r = t' ++ r') :
    t = t' ∧ r = r' := by
  have found := h.run?_append stops
  rw [same, h'.run?_append stops'] at found
  cases found
  exact ⟨rfl, rfl⟩

theorem strip?_eq_some_iff {k s r : List Char} : strip? k s = some r ↔ s = k ++ r := by
  induction k generalizing s with
  | nil => simp [strip?]
  | cons c k ih =>
    cases s with
    | nil => simp [strip?]
    | cons d s =>
      simp only [strip?, List.cons_append, List.cons.injEq]
      split
      · next same => simp [ih, same]
      · next other => simp [Ne.symm other]

/-! ### Spellings -/

/-- A declaration as it is written. -/
@[ext]
structure Spelling where
  name : List Char
  gap : List Char
  description : List Char
  space : List Char
  token : List Char
  name_isRun : IsRun isWord name := by decide +kernel
  gap_isRun : IsRun isBlank gap := by decide +kernel
  description_isRun : IsRun (· ≠ '"') description := by decide +kernel
  space_isRun : IsRun isBlank space := by decide +kernel
  token_isRun : IsRun isWord token := by decide +kernel

namespace Spelling

variable {w w' : Spelling} {r r' s : List Char} {d : Declaration}

/-- What is written between the opening parenthesis and the end of the declaration. -/
def body (w : Spelling) : List Char :=
  w.name ++ (w.gap ++ '"' :: (w.description ++ '"' :: (w.space ++ (w.token ++ [')']))))

def text (w : Spelling) : List Char :=
  keyword ++ w.body

/-- What is declared. -/
def declaration (w : Spelling) : Declaration :=
  ⟨w.name, w.description, w.token⟩

theorem text_append (w : Spelling) (r : List Char) : w.text ++ r =
    keyword ++ (w.name ++ (w.gap ++ ('"' :: (w.description ++ ('"' :: (w.space ++
      (w.token ++ (')' :: r)))))))) := by
  simp [text, body]

theorem isBlank_quote : isBlank '"' = false := by decide

theorem isWord_closing : isWord ')' = false := by decide

theorem not_isBlank_of_isWord {c : Char} (word : isWord c = true) : isBlank c = false := by
  cases blank : isBlank c with
  | false => rfl
  | true => rw [not_isWord_of_isBlank blank] at word; cases word

theorem stops_gap (w : Spelling) (s : List Char) : Stops isWord (w.gap ++ s) :=
  w.gap_isRun.stops (fun _ => not_isWord_of_isBlank) s

theorem stops_token (w : Spelling) (s : List Char) : Stops isBlank (w.token ++ s) :=
  w.token_isRun.stops (fun _ => not_isBlank_of_isWord) s

theorem stops_quote (s : List Char) : Stops (· ≠ '"') ('"' :: s) :=
  stops_cons (by decide) s

/-- A text begins with one spelling at most. -/
theorem text_append_inj (same : w.text ++ r = w'.text ++ r') : w = w' ∧ r = r' := by
  rw [text_append, text_append, List.append_cancel_left_eq] at same
  obtain ⟨name, same⟩ :=
    w.name_isRun.append_inj w'.name_isRun (w.stops_gap _) (w'.stops_gap _) same
  obtain ⟨gap, same⟩ := w.gap_isRun.append_inj w'.gap_isRun (stops_cons isBlank_quote _)
    (stops_cons isBlank_quote _) same
  obtain ⟨description, same⟩ := w.description_isRun.append_inj w'.description_isRun
    (stops_quote _) (stops_quote _) (List.cons.inj same).2
  obtain ⟨space, same⟩ := w.space_isRun.append_inj w'.space_isRun (w.stops_token _)
    (w'.stops_token _) (List.cons.inj same).2
  obtain ⟨token, same⟩ := w.token_isRun.append_inj w'.token_isRun (stops_cons isWord_closing r)
    (stops_cons isWord_closing r') same
  exact ⟨Spelling.ext name gap description space token, (List.cons.inj same).2⟩

/-- The declaration that a spelling writes is found at the start of a text, whatever comes after
it. -/
theorem start?_text (w : Spelling) (r : List Char) :
    start? (w.text ++ r) = some (w.declaration, r) := by
  have name (s : List Char) : run? isWord (w.name ++ (w.gap ++ s)) = some (w.name, w.gap ++ s) :=
    w.name_isRun.run?_append (w.stops_gap s)
  have gap (s : List Char) : run? isBlank (w.gap ++ '"' :: s) = some (w.gap, '"' :: s) :=
    w.gap_isRun.run?_append (stops_cons isBlank_quote s)
  have description (s : List Char) :
      run? (· ≠ '"') (w.description ++ '"' :: s) = some (w.description, '"' :: s) :=
    w.description_isRun.run?_append (stops_quote s)
  have space (s : List Char) :
      run? isBlank (w.space ++ (w.token ++ s)) = some (w.space, w.token ++ s) :=
    w.space_isRun.run?_append (w.stops_token s)
  have token (s : List Char) : run? isWord (w.token ++ ')' :: s) = some (w.token, ')' :: s) :=
    w.token_isRun.run?_append (stops_cons isWord_closing s)
  have one (k : Char) (s : List Char) : strip? [k] (k :: s) = some s :=
    strip?_eq_some_iff.2 rfl
  rw [text_append, start?, strip?_eq_some_iff.2 rfl]
  simp only [Option.bind_eq_bind, Option.bind_some, name, gap, one, description, space, token]
  rfl

/-- What is found at the start of a text is written there. -/
theorem exists_of_start? (h : start? s = some (d, r)) :
    ∃ w : Spelling, w.declaration = d ∧ s = w.text ++ r := by
  simp only [start?, Option.bind_eq_bind, Option.bind_eq_some_iff, Option.pure_def,
    Option.some.injEq, Prod.mk.injEq, Prod.exists, strip?_eq_some_iff, run?_eq_some_iff] at h
  obtain ⟨_, rfl, name, _, ⟨name_, -, rfl⟩, gap, _, ⟨gap_, -, rfl⟩, _, rfl, description, _,
    ⟨description_, -, rfl⟩, _, rfl, space, _, ⟨space_, -, rfl⟩, token, _, ⟨token_, -, rfl⟩, _, rfl,
    rfl, rfl⟩ := h
  refine ⟨⟨name, gap, description, space, token, name_, gap_, description_, space_, token_⟩, rfl,
    ?_⟩
  simp [text_append]

end Spelling

end Declaration

end BuildPanel
