import BuildPanel.Proofs.Declaration.Scanned

/-!
Texts that break off inside the description of a declaration, and texts that complete it. A line end
that is followed by the keyword cannot lie in any other part of a declaration: white space and words
do not go on to the keyword, and the keyword is not a token, since a parenthesis that opens follows
it.
-/

namespace BuildPanel

namespace Declaration

open Text

/-- A text breaks off inside a description. -/
def BreaksOff (t : List Char) : Prop :=
  ∃ before name gap description,
    t = before ++ (keyword ++ (name ++ (gap ++ '"' :: description))) ∧
      IsRun isWord name ∧ IsRun isBlank gap ∧ '"' ∉ description

/-- A text goes on with the rest of a description and ends the declaration. -/
def Completes (s : List Char) : Prop :=
  ∃ description space token rest,
    s = description ++ '"' :: (space ++ (token ++ ')' :: rest)) ∧
      '"' ∉ description ∧ IsRun isBlank space ∧ IsRun isWord token

/-- The text after the end of a description and of its declaration. -/
def ending? (s : List Char) : Option (List Char) := do
  let s ← strip? ['"'] (s.dropWhile (· ≠ '"'))
  let (_, s) ← run? isBlank s
  let (_, s) ← run? isWord s
  strip? [')'] s

theorem completes_iff {s : List Char} : Completes s ↔ (ending? s).isSome := by
  simp only [ending?, Option.isSome_iff_exists, Option.bind_eq_bind, Option.bind_eq_some_iff,
    Prod.exists, strip?_eq_some_iff, run?_eq_some_iff]
  constructor
  · rintro ⟨description, space, token, rest, rfl, quoteless, space_, token_⟩
    have all : ∀ c ∈ description, decide (c ≠ '"') = true := by
      intro c inside
      refine decide_eq_true ?_
      rintro rfl
      exact quoteless inside
    refine ⟨rest, _, ?_, space, _, ⟨space_, ?_, rfl⟩, token, _, ⟨token_, ?_, rfl⟩, rfl⟩
    · rw [List.dropWhile_append_of_pos all]
      rfl
    · exact token_.stops (fun _ => Spelling.not_isBlank_of_isWord) _
    · exact stops_cons Spelling.isWord_closing rest
  · rintro ⟨rest, _, afterDescription, space, _, ⟨space_, -, rfl⟩, token, _, ⟨token_, -, rfl⟩, rfl⟩
    have whole := List.takeWhile_append_dropWhile (p := (· ≠ '"')) (l := s)
    rw [afterDescription] at whole
    refine ⟨s.takeWhile (· ≠ '"'), space, token, rest, whole.symm, ?_, space_, token_⟩
    intro inside
    have := List.all_eq_true.1 List.all_takeWhile _ inside
    exact absurd rfl (of_decide_eq_true this)

instance (s : List Char) : Decidable (Completes s) :=
  decidable_of_iff _ completes_iff.symm

theorem BreaksOff.append_left {t : List Char} (h : BreaksOff t) (more : List Char) :
    BreaksOff (more ++ t) := by
  obtain ⟨before, name, gap, description, rfl, parts⟩ := h
  exact ⟨more ++ before, name, gap, description, (List.append_assoc _ _ _).symm, parts⟩

/-- Where a character of a text that is made of two parts lies. -/
theorem append_cons_cases {α : Type} {t s u v : List α} {c : α} (h : t ++ s = u ++ c :: v) :
    (∃ u', t = u ++ c :: u' ∧ v = u' ++ s) ∨ ∃ u', u = t ++ u' ∧ s = u' ++ c :: v := by
  rcases List.append_eq_append_iff.1 h with ⟨u', rfl, rest⟩ | ⟨u', rfl, rest⟩
  · exact .inr ⟨u', rfl, rest⟩
  · cases u' with
    | nil => exact .inr ⟨[], by simp, by simpa using rest.symm⟩
    | cons d u' =>
      obtain ⟨rfl, rfl⟩ := List.cons.inj rest
      exact .inl ⟨u', rfl, rfl⟩

/-- A character that does not lie in the first part lies in the second. -/
theorem append_cons_of_notMem {α : Type} {t s u v : List α} {c : α} (h : t ++ s = u ++ c :: v)
    (absent : c ∉ t) : ∃ u', u = t ++ u' ∧ s = u' ++ c :: v := by
  rcases append_cons_cases h with ⟨u', rfl, -⟩ | there
  · exact absurd (List.mem_append_right u List.mem_cons_self) absent
  · exact there

theorem cons_eq_append_cons {α : Type} {d c : α} {s u v : List α} (h : d :: s = u ++ c :: v)
    (other : d ≠ c) : ∃ u', u = d :: u' ∧ s = u' ++ c :: v :=
  append_cons_of_notMem (t := [d]) h (by simpa using Ne.symm other)

theorem IsRun.notMem {p : Char → Bool} {t : List Char} (h : IsRun p t) {c : Char}
    (outside : p c = false) : c ∉ t := by
  intro inside
  have := h.all c inside
  rw [outside] at this
  cases this

theorem IsRun.all_of_eq {p : Char → Bool} {t before after : List Char} {c : Char} (h : IsRun p t)
    (split_ : t = before ++ c :: after) : ∀ d ∈ after, p d = true := by
  intro d inside
  refine h.all d ?_
  rw [split_]
  exact List.mem_append_right _ (List.mem_cons_of_mem _ inside)

/-- No run goes on to a keyword whose first character does not belong to its class. -/
theorem nil_of_append_eq_keyword {p : Char → Bool} {t s r : List Char} (all : ∀ c ∈ t, p c = true)
    (outside : p 'o' = false) (h : t ++ s = keyword ++ r) : t = [] := by
  cases t with
  | nil => rfl
  | cons c t =>
    have first : c = 'o' := (List.cons.inj h).1
    have := all c List.mem_cons_self
    rw [first, outside] at this
    cases this

/-- No token is the word of the keyword. -/
theorem token_append_ne_keyword {t s r : List Char} (h : IsRun isWord t) :
    t ++ ')' :: s ≠ keyword ++ r := by
  have option : IsRun isWord "option".toList := by decide +kernel
  have split_ : keyword ++ r = "option".toList ++ '(' :: r := rfl
  intro same
  rw [split_] at same
  obtain ⟨-, closing⟩ := h.append_inj option (stops_cons (by decide) _) (stops_cons (by decide) _)
    same
  exact absurd (List.cons.inj closing).1 (by decide)

/-- A declaration in which a line ends in front of a keyword has its line end in its description. -/
theorem breaksOff_of_crossing {w : Spelling} {u v r s : List Char}
    (h : w.text = u ++ '\n' :: v) (continues : v ++ r = keyword ++ s) :
    BreaksOff u ∧ Completes (v ++ r) := by
  have written := w.text_append []
  rw [List.append_nil, h] at written
  -- The line end does not lie in front of the first white space.
  obtain ⟨u₁, rfl, fromName⟩ := append_cons_of_notMem written.symm (by decide)
  obtain ⟨u₂, rfl, fromGap⟩ := append_cons_of_notMem fromName (w.name_isRun.notMem (by decide))
  rcases append_cons_cases fromGap with ⟨g, gap, rfl⟩ | ⟨u₃, rfl, fromQuote⟩
  · -- White space before the opening quote would go on to the keyword.
    rw [List.append_assoc] at continues
    obtain rfl := nil_of_append_eq_keyword (w.gap_isRun.all_of_eq gap) (by decide) continues
    exact absurd (List.cons.inj continues).1 (by decide)
  obtain ⟨u₄, rfl, fromDescription⟩ := cons_eq_append_cons fromQuote (by decide)
  rcases append_cons_cases fromDescription with ⟨d, description, rfl⟩ | ⟨u₅, rfl, fromEnd⟩
  · have quoteless : '"' ∉ w.description := w.description_isRun.notMem (by decide)
    rw [description, List.mem_append, List.mem_cons, not_or, not_or] at quoteless
    constructor
    · exact ⟨[], w.name, w.gap, u₄, rfl, w.name_isRun, w.gap_isRun, quoteless.1⟩
    · refine ⟨d, w.space, w.token, r, ?_, quoteless.2.2, w.space_isRun, w.token_isRun⟩
      simp
  obtain ⟨u₆, rfl, fromSpace⟩ := cons_eq_append_cons fromEnd (by decide)
  rcases append_cons_cases fromSpace with ⟨g, space, rfl⟩ | ⟨u₇, rfl, fromToken⟩
  · -- White space after the closing quote would make the keyword the token.
    simp only [List.append_assoc] at continues
    obtain rfl := nil_of_append_eq_keyword (w.space_isRun.all_of_eq space) (by decide) continues
    exact absurd (by simpa using continues) (token_append_ne_keyword w.token_isRun)
  -- Nor does it lie behind the last white space.
  obtain ⟨u₈, rfl, fromClosing⟩ :=
    append_cons_of_notMem fromToken (w.token_isRun.notMem (by decide))
  obtain ⟨u₉, rfl, none_⟩ := cons_eq_append_cons fromClosing (by decide)
  exact absurd none_ (by simp)

end Declaration

end BuildPanel
