import BuildPanel.Proofs.Declaration.Crossing

/-!
A declaration that encloses another one ends with it. Each of them holds two double quotes, so that
both have their description between the same quotes, and what has to follow a description can be
read in one way only. So a declaration that is complete cannot become a part of one that goes on.
-/

namespace BuildPanel

namespace Declaration

open Text

/-- A text is cut in one way behind the last place of a character. -/
theorem behind_last_inj {α : Type} {c : α} {s s' t t' : List α} (same : s ++ c :: t = s' ++ c :: t')
    (last : c ∉ t) (last' : c ∉ t') : t = t' := by
  rcases List.append_eq_append_iff.1 same with ⟨u, -, rest⟩ | ⟨u, -, rest⟩
  · cases u with
    | nil => exact (List.cons.inj rest).2
    | cons d u =>
      obtain ⟨rfl, rfl⟩ := List.cons.inj rest
      exact absurd (List.mem_append_right u List.mem_cons_self) last
  · cases u with
    | nil => exact (List.cons.inj rest).2.symm
    | cons d u =>
      obtain ⟨rfl, rfl⟩ := List.cons.inj rest
      exact absurd (List.mem_append_right u List.mem_cons_self) last'

namespace Spelling

theorem not_isWord_quote : isWord '"' = false := by decide

theorem quote_notMem_name (w : Spelling) : '"' ∉ w.name :=
  w.name_isRun.notMem not_isWord_quote

theorem quote_notMem_gap (w : Spelling) : '"' ∉ w.gap :=
  w.gap_isRun.notMem isBlank_quote

theorem quote_notMem_description (w : Spelling) : '"' ∉ w.description :=
  w.description_isRun.notMem (by decide)

/-- What is written behind the description and its closing quote. -/
def ending (w : Spelling) : List Char :=
  w.space ++ (w.token ++ [')'])

theorem quote_notMem_ending (w : Spelling) : '"' ∉ w.ending := by
  have space := w.space_isRun.notMem isBlank_quote
  have token := w.token_isRun.notMem not_isWord_quote
  have closing : '"' ∉ [')'] := by decide
  simp only [ending, List.mem_append, not_or]
  exact ⟨space, token, closing⟩

/-- What is written up to the closing quote. -/
def opening (w : Spelling) : List Char :=
  keyword ++ (w.name ++ (w.gap ++ '"' :: w.description))

theorem text_eq (w : Spelling) : w.text = w.opening ++ '"' :: w.ending := by
  have written := w.text_append []
  rw [List.append_nil] at written
  rw [written]
  simp [opening, ending]

/-- A declaration holds two quotes. -/
theorem count_quote (w : Spelling) : w.text.count '"' = 2 := by
  have keyword_ : keyword.count '"' = 0 := by decide
  have name := List.count_eq_zero.2 w.quote_notMem_name
  have gap := List.count_eq_zero.2 w.quote_notMem_gap
  have description := List.count_eq_zero.2 w.quote_notMem_description
  have ending := List.count_eq_zero.2 w.quote_notMem_ending
  rw [text_eq, opening]
  simp only [List.count_append, List.count_cons_self, keyword_, name, gap, description, ending]

/-- The end of a declaration is not the beginning of a longer one. -/
theorem ending_append_inj {w w' : Spelling} {r : List Char} (same : w.ending ++ r = w'.ending) :
    r = [] := by
  simp only [ending, List.append_assoc] at same
  obtain ⟨-, same⟩ :=
    w.space_isRun.append_inj w'.space_isRun (w.stops_token _) (w'.stops_token _) same
  obtain ⟨-, same⟩ := w.token_isRun.append_inj w'.token_isRun (stops_cons isWord_closing r)
    (stops_cons isWord_closing []) same
  exact (List.cons.inj same).2

/-- A declaration that encloses another one has nothing behind it. -/
theorem eq_nil_of_encloses {w w' : Spelling} {u v : List Char}
    (encloses : w'.text = u ++ (w.text ++ v)) : v = [] := by
  have quotes := congrArg (List.count '"') encloses
  rw [List.count_append, List.count_append, count_quote, count_quote] at quotes
  have behind : '"' ∉ w.ending ++ v := by
    rw [List.mem_append, not_or]
    exact ⟨w.quote_notMem_ending, List.count_eq_zero.1 (by omega)⟩
  have same : (u ++ w.opening) ++ '"' :: (w.ending ++ v) = w'.opening ++ '"' :: w'.ending := by
    rw [← text_eq w', encloses, text_eq w]
    simp
  exact ending_append_inj (behind_last_inj same behind w'.quote_notMem_ending)

end Spelling

namespace Occurrence

variable {o o' : Occurrence} {s : List Char}

/-- A declaration that encloses another one ends with it. -/
theorem In.stop_eq_of_encloses (h : o.In s) (h' : o'.In s) (before : o'.start ≤ o.start)
    (behind : o.stop ≤ o'.stop) : o'.stop = o.stop := by
  obtain ⟨k, start⟩ := Nat.exists_eq_add_of_le before
  obtain ⟨j, stop_⟩ := Nat.exists_eq_add_of_le behind
  have length_ : o'.spelling.text.length = k + (o.spelling.text.length + j) := by
    simp only [stop] at stop_
    omega
  have outer := List.prefix_iff_eq_take.1 h'
  have inner := List.prefix_iff_eq_take.1 h
  have whole : o'.spelling.text = (s.drop o'.start).take k ++
      (o.spelling.text ++ ((s.drop o.start).drop o.spelling.text.length).take j) := by
    rw [outer, length_, List.take_add, List.drop_drop, ← start, List.take_add, ← inner]
  have empty := congrArg List.length whole
  rw [Spelling.eq_nil_of_encloses whole] at empty
  have short : ((s.drop o'.start).take k).length ≤ k := List.length_take_le _ _
  simp only [List.length_append, List.length_nil] at empty
  omega

end Occurrence

end Declaration

end BuildPanel
