import Mathlib.Data.List.Infix
import BuildPanel.Proofs.Declaration.Enclosing
import BuildPanel.Proofs.Options.Merging

/-!
Declarations of a text that is put together. Those of two texts, one behind the other, are those of
the first and then those of the second, whatever the second is, if and only if the first does not
break off in a declaration behind its last one. A declaration that breaks off before or inside one
that is complete does not count: it cannot enclose it and go on.

A text that is made of declarations, with fillers around them in which the keyword does not stand,
declares these and nothing else.
-/

namespace BuildPanel

namespace Declaration

open Text

namespace Occurrence

variable {o : Occurrence} {a b : List Char}

/-- The same declaration, so many characters further on. -/
def shift (k : Nat) (o : Occurrence) : Occurrence :=
  ⟨k + o.start, o.spelling⟩

theorem shift_stop (k : Nat) (o : Occurrence) : (o.shift k).stop = k + o.stop :=
  Nat.add_assoc _ _ _

theorem In.append_right (h : o.In a) (b : List Char) : o.In (a ++ b) := by
  have start : o.start ≤ a.length := Nat.le_trans (Nat.le_of_lt o.start_lt_stop) h.stop_le
  unfold In
  rw [List.drop_append_of_le_length start]
  exact h.trans (List.prefix_append _ b)

/-- What ends in the first text stands in it. -/
theorem In.of_append_left (h : o.In (a ++ b)) (ends : o.stop ≤ a.length) : o.In a := by
  have start : o.start ≤ a.length := Nat.le_trans (Nat.le_of_lt o.start_lt_stop) ends
  unfold In at h
  rw [List.drop_append_of_le_length start] at h
  refine List.prefix_of_prefix_length_le h (List.prefix_append _ b) ?_
  rw [stop] at ends
  rw [List.length_drop]
  omega

theorem shift_in_iff : (o.shift a.length).In (a ++ b) ↔ o.In b := by
  unfold In shift
  rw [List.drop_append, List.drop_eq_nil_of_le (Nat.le_add_right _ _), List.nil_append,
    Nat.add_sub_cancel_left]

/-- What begins in the second text is found in it. -/
theorem exists_shift {k : Nat} (behind : k ≤ o.start) : ∃ o' : Occurrence, o = o'.shift k := by
  obtain ⟨i, start⟩ := Nat.exists_eq_add_of_le behind
  exact ⟨⟨i, o.spelling⟩, Occurrence.ext start rfl⟩

end Occurrence

/-- Where the last of some declarations ends, or a place if there is none. -/
def lastStop (i : Nat) (found : List Occurrence) : Nat :=
  (found.getLast?.map Occurrence.stop).getD i

theorem lastStop_cons (i : Nat) (o : Occurrence) (later : List Occurrence) :
    lastStop i (o :: later) = lastStop o.stop later := by
  unfold lastStop
  rw [List.getLast?_cons]
  cases later.getLast? <;> rfl

/-- A text breaks off in a declaration: from some place on, not before a given one, it is the
beginning of one, which is not complete. -/
def EndsOpen (a : List Char) (i : Nat) : Prop :=
  ∃ j, i ≤ j ∧ a.drop j ≠ [] ∧ ∃ w : Spelling, a.drop j <+: w.text ∧ a.drop j ≠ w.text

namespace Search

variable {a b : List Char} {i : Nat} {found found' : List Occurrence} {o : Occurrence}

theorem le_lastStop (h : Search a i found) : i ≤ lastStop i found := by
  induction h with
  | ended => exact Nat.le_refl _
  | @found i o _ _ behind _ _ ih =>
    rw [lastStop_cons]
    exact Nat.le_trans behind (Nat.le_trans (Nat.le_of_lt o.start_lt_stop) ih)

theorem stop_le_lastStop (h : Search a i found) (taken : o ∈ found) :
    o.stop ≤ lastStop i found := by
  induction h with
  | ended => cases taken
  | found _ _ _ rest ih =>
    rw [lastStop_cons]
    rcases List.mem_cons.1 taken with rfl | there
    · exact rest.le_lastStop
    · exact ih there

/-- What is found in a text is found in it behind another one. -/
theorem shift (h : Search b i found) (a : List Char) :
    Search (a ++ b) (a.length + i) (found.map (Occurrence.shift a.length)) := by
  induction h with
  | ended none_ =>
    refine .ended fun o isIn => Nat.lt_of_not_le fun ge => ?_
    obtain ⟨o', rfl⟩ := Occurrence.exists_shift (Nat.le_trans (Nat.le_add_right _ _) ge)
    have before := none_ o' (Occurrence.shift_in_iff.1 isIn)
    exact absurd (Nat.le_of_add_le_add_left ge) (Nat.not_le_of_lt before)
  | found isIn behind first rest ih =>
    rw [← Occurrence.shift_stop] at ih
    refine .found (Occurrence.shift_in_iff.2 isIn) (Nat.add_le_add_left behind _) ?_ ih
    intro o' isIn' ge
    obtain ⟨o', rfl⟩ := Occurrence.exists_shift (Nat.le_trans (Nat.le_add_right _ _) ge)
    have later := first o' (Occurrence.shift_in_iff.1 isIn') (Nat.le_of_add_le_add_left ge)
    exact Nat.add_le_add_left later _

/-- What begins in the first text and is not complete in it makes it end open. -/
theorem endsOpen_of_in (isIn : o.In (a ++ b)) (behind : i ≤ o.start) (inside : o.start < a.length)
    (crosses : a.length < o.stop) : EndsOpen a i := by
  have fromHere : o.spelling.text <+: a.drop o.start ++ b := by
    rw [← List.drop_append_of_le_length (Nat.le_of_lt inside)]
    exact isIn
  rw [Occurrence.stop] at crosses
  refine ⟨o.start, behind, fun empty => ?_, o.spelling, ?_, fun whole => ?_⟩
  · exact absurd (List.drop_eq_nil_iff.1 empty) (Nat.not_le_of_lt inside)
  · refine List.prefix_of_prefix_length_le (List.prefix_append _ b) fromHere ?_
    rw [List.length_drop]
    omega
  · have same := congrArg List.length whole
    rw [List.length_drop] at same
    omega

/-- A search of two texts takes what is found in the first and then what is found in the second, if
the first does not end open. -/
theorem append (h : Search a i found) (inside : i ≤ a.length)
    (closed : ¬ EndsOpen a (lastStop i found)) (h' : Search b 0 found') :
    Search (a ++ b) i (found ++ found'.map (Occurrence.shift a.length)) := by
  induction h with
  | ended none_ =>
    refine (h'.shift a).of_later inside fun o isIn ge => Nat.le_of_not_lt fun lt => ?_
    rcases Nat.lt_or_ge a.length o.stop with crosses | ends
    · exact closed (endsOpen_of_in isIn ge lt crosses)
    · have := none_ o (isIn.of_append_left ends)
      omega
  | @found i o later isIn behind first rest ih =>
    rw [lastStop_cons] at closed
    refine .found (isIn.append_right b) behind ?_ (ih isIn.stop_le closed)
    intro o' isIn' ge
    rcases Nat.lt_or_ge a.length o'.stop with crosses | ends
    · -- It would enclose the one that has been found, and go on.
      refine Nat.le_of_not_lt fun lt => ?_
      have ends := isIn.stop_le
      have same := (isIn.append_right b).stop_eq_of_encloses isIn' (Nat.le_of_lt lt) (by omega)
      omega
    · exact first o' (isIn'.of_append_left ends) ge

/-- If the first text ends open, some second one completes it. -/
theorem not_endsOpen_of_append (h : Search a 0 found)
    (composes : ∀ b found', Search b 0 found' →
      Search (a ++ b) 0 (found ++ found'.map (Occurrence.shift a.length))) :
    ¬ EndsOpen a (lastStop 0 found) := by
  rintro ⟨j, behind, some_, w, ⟨v, completes⟩, other⟩
  have inside : j < a.length := by
    refine Nat.lt_of_not_le fun le => some_ (List.drop_eq_nil_iff.2 le)
  obtain ⟨found', search', -⟩ := exists_search v 0
  have search := composes v found' search'
  have isIn : Occurrence.In ⟨j, w⟩ (a ++ v) := by
    unfold Occurrence.In
    rw [List.drop_append_of_le_length (Nat.le_of_lt inside)]
    exact (completes ▸ List.prefix_refl w.text)
  have further : ∀ o ∈ found'.map (Occurrence.shift a.length), a.length ≤ o.start := by
    intro o there
    obtain ⟨o', -, rfl⟩ := List.mem_map.1 there
    exact Nat.le_add_right _ _
  rcases search.taken_or_overlaps isIn (Nat.zero_le _) with taken | ⟨o', taken, before, within⟩
  · rcases List.mem_append.1 taken with first | second
    · refine other (List.IsPrefix.eq_of_length_le ⟨v, completes⟩ ?_)
      have ends := (h.isIn_of_mem first).stop_le
      rw [Occurrence.stop] at ends
      rw [List.length_drop]
      exact Nat.le_sub_of_add_le' ends
    · have := further _ second
      exact absurd this (Nat.not_le_of_lt inside)
  · dsimp only at before within
    rcases List.mem_append.1 taken with first | second
    · have := h.stop_le_lastStop first
      omega
    · have := further _ second
      omega

end Search

/-! ### Texts behind one another -/

/-- What has been found in two texts makes up what is found in both, one behind the other. -/
structure Composes (a b : String) : Prop where
  found : ∀ first second, Search a.toList 0 first → Search b.toList 0 second →
    Search (a ++ b).toList 0 (first ++ second.map (Occurrence.shift a.toList.length))
  declared : scan (a ++ b).toList = scan a.toList ++ scan b.toList
  /-- The declarations of the second text are inserted in their order. -/
  inserted : OptionSet.scan (a ++ b) = (OptionSet.scan a).insertAll ((scan b.toList).map member)
  /-- A name that is known keeps its place; new ones follow, each where it comes first. -/
  placed : (OptionSet.scan (a ++ b)).names = (OptionSet.scan a).names ++
    ((((scan b.toList).map member).map Prod.fst).filter (· ∉ (OptionSet.scan a).names)).eraseDups
  /-- The last description and value of a name win. -/
  won : OptionSet.LaidOver (OptionSet.scan b) (OptionSet.scan a) (OptionSet.scan (a ++ b))

/-- A text does not break off in a declaration behind the last one that is found in it. -/
def Closed (a : List Char) : Prop :=
  ∀ found, Search a 0 found → ¬ EndsOpen a (lastStop 0 found)

theorem Composes.of_found {a b : String} (h : ∀ first second, Search a.toList 0 first →
    Search b.toList 0 second →
      Search (a ++ b).toList 0 (first ++ second.map (Occurrence.shift a.toList.length))) :
    Composes a b := by
  have declared : scan (a ++ b).toList = scan a.toList ++ scan b.toList := by
    obtain ⟨first, search, scanned⟩ := Search.exists_search a.toList 0
    obtain ⟨second, search', scanned'⟩ := Search.exists_search b.toList 0
    obtain ⟨both, search'', scanned''⟩ := Search.exists_search (a ++ b).toList 0
    obtain rfl := search''.unique (h first second search search')
    rw [List.drop_zero] at scanned scanned' scanned''
    rw [scanned, scanned', scanned'', List.map_append, List.map_map]
    rfl
  have inserted : OptionSet.scan (a ++ b) =
      (OptionSet.scan a).insertAll ((scan b.toList).map member) := by
    rw [OptionSet.scan, declared, List.map_append]
    exact List.foldl_append
  refine ⟨h, declared, inserted, ?_, fun name => ?_⟩
  · rw [inserted, OptionSet.names_insertAll]
  · rw [inserted, OptionSet.find?_insertAll, ← OptionSet.find?_ofList]
    rfl

theorem composes_iff (a : String) : (∀ b, Composes a b) ↔ Closed a.toList := by
  constructor
  · intro composes found search
    refine search.not_endsOpen_of_append fun b second search' => ?_
    have both := (composes (String.ofList b)).found found second search
    rw [String.toList_append, String.toList_ofList] at both
    exact both search'
  · intro closed b
    refine .of_found fun first second search search' => ?_
    rw [String.toList_append]
    exact search.append (Nat.zero_le _) (closed first search) search'

/-! ### Declarations and fillers -/

/-- A text in which the keyword does not stand. -/
structure Filler where
  text : List Char
  free : ¬ keyword <:+: text := by decide

variable {s t : List Char} {c : Char}

theorem start?_of_no_keyword (h : ¬ keyword <+: s) : start? s = none := by
  cases found : strip? keyword s with
  | none => simp [start?, found]
  | some r => exact absurd ⟨r, (strip?_eq_some_iff.1 found).symm⟩ h

theorem scan_cons_of_no_keyword (h : ¬ keyword <+: c :: s) : scan (c :: s) = scan s := by
  have none_ := start?_of_no_keyword h
  rw [scan]
  split
  · next found => rw [none_] at found; cases found
  · rfl

theorem scan_text_append (w : Spelling) (r : List Char) :
    scan (w.text ++ r) = w.declaration :: scan r := by
  have here := w.start?_text r
  rw [scan]
  split
  · next found =>
    rw [here] at found
    cases found
    rfl
  · next none_ => rw [here] at none_; cases none_

/-- A keyword does not begin inside another one. -/
theorem not_keyword_inside : ∀ k < keyword.length, 0 < k → ¬ keyword.drop k <+: keyword := by
  decide

/-- No keyword begins in a text that is free of it and in front of a keyword, or of nothing. -/
theorem not_keyword_prefix (free : ¬ keyword <:+: t) (some_ : t ≠ [])
    (next : s = [] ∨ keyword <+: s) : ¬ keyword <+: t ++ s := by
  intro begins
  rcases Nat.lt_or_ge t.length keyword.length with short | long
  · obtain ⟨v, split_⟩ := List.prefix_of_prefix_length_le (List.prefix_append t s) begins
      (Nat.le_of_lt short)
    have rest : keyword.drop t.length = v := by
      rw [← split_, List.drop_left]
    have goesOn : v <+: s := by
      rw [← split_] at begins
      exact (List.prefix_append_right_inj t).1 begins
    refine not_keyword_inside t.length short (List.length_pos_iff.2 some_) ?_
    rw [rest]
    rcases next with rfl | again
    · rw [List.prefix_nil.1 goesOn]
      exact List.nil_prefix
    · refine List.prefix_of_prefix_length_le goesOn again ?_
      rw [← rest, List.length_drop]
      exact Nat.sub_le _ _
  · exact free (List.prefix_of_prefix_length_le begins (List.prefix_append t s) long).isInfix

/-- A filler in front of a keyword, or of nothing, declares nothing. -/
theorem scan_filler_append (free : ¬ keyword <:+: t) (next : s = [] ∨ keyword <+: s) :
    scan (t ++ s) = scan s := by
  induction t with
  | nil => rfl
  | cons c t ih =>
    have here := not_keyword_prefix free (List.cons_ne_nil c t) next
    rw [List.cons_append] at here ⊢
    rw [scan_cons_of_no_keyword here]
    exact ih fun inside => free (List.infix_cons inside)

/-- Declarations with fillers around them. -/
def woven (front : Filler) (parts : List (Spelling × Filler)) : List Char :=
  front.text ++ parts.flatMap fun p => p.1.text ++ p.2.text

theorem scan_woven (front : Filler) (parts : List (Spelling × Filler)) :
    scan (woven front parts) = parts.map fun p => p.1.declaration := by
  induction parts generalizing front with
  | nil => exact (scan_filler_append front.free (.inl rfl)).trans (by rw [scan]; rfl)
  | cons p parts ih =>
    have split_ : woven front (p :: parts) = front.text ++ (p.1.text ++ woven p.2 parts) := by
      simp [woven]
    have next : keyword <+: p.1.text ++ woven p.2 parts :=
      (List.prefix_append keyword p.1.body).trans (List.prefix_append _ _)
    rw [split_, scan_filler_append front.free (.inr next), scan_text_append, ih, List.map_cons]

/-- Scanning is compositional: a text can be put in front of any other one if and only if it does
not end open, and fillers do not count. -/
theorem compositional :
    (∀ a : String, (∀ b, Composes a b) ↔ Closed a.toList) ∧
    ∀ front parts, scan (woven front parts) = parts.map (fun p => p.1.declaration) ∧
      OptionSet.scan (String.ofList (woven front parts)) =
        .ofList (parts.map fun p => p.1.declaration.member) := by
  refine ⟨composes_iff, fun front parts => ⟨scan_woven front parts, ?_⟩⟩
  rw [OptionSet.scan, String.toList_ofList, scan_woven, List.map_map]
  rfl

/-! ### A text with an open declaration inside a complete one -/

theorem mem_drop_of_head? {a : List Char} {c : Char} {i j : Nat} (le : i ≤ j)
    (first : (a.drop j).head? = some c) : c ∈ a.drop i := by
  obtain ⟨k, rfl⟩ := Nat.exists_eq_add_of_le le
  rw [← List.drop_drop] at first
  exact List.mem_of_mem_drop (List.mem_of_head? first)

theorem Spelling.head?_text (w : Spelling) : w.text.head? = some 'o' := rfl

/-- Where the first character of the keyword does not stand, no declaration begins. -/
theorem Occurrence.In.start_lt {a : List Char} {o : Occurrence} {i : Nat} (h : o.In a)
    (absent : 'o' ∉ a.drop i) : o.start < i := by
  refine Nat.lt_of_not_le fun le => absent (mem_drop_of_head? le ?_)
  rw [h.drop_eq]
  rfl

@[inherit_doc Occurrence.In.start_lt]
theorem not_endsOpen_of_notMem {a : List Char} {i : Nat} (absent : 'o' ∉ a.drop i) :
    ¬ EndsOpen a i := by
  rintro ⟨j, le, some_, w, ⟨v, text⟩, -⟩
  obtain ⟨c, rest, here⟩ := List.exists_cons_of_ne_nil some_
  refine absent (mem_drop_of_head? le ?_)
  have first := w.head?_text
  rw [← text, here] at first
  rw [here]
  exact first

/-- A declaration in whose description another one begins. -/
def nesting : Spelling :=
  .mk "A".toList "\n".toList "option(B ".toList "\t".toList "TRUE".toList

/-- What completes the inner one, with two declarations more. -/
def completing : String :=
  "\" ON) option(C \"c\" ON)\noption(A \"z\" ON)"

theorem closed_nesting : Closed nesting.text := by
  intro found search
  have behind : 'o' ∉ nesting.text.drop nesting.text.length := by simp
  have isIn : Occurrence.In ⟨0, nesting⟩ nesting.text := List.prefix_refl _
  have search' : Search nesting.text 0 [⟨0, nesting⟩] := by
    refine .found isIn (Nat.le_refl _) (fun _ _ _ => Nat.zero_le _) (.ended fun o isIn' => ?_)
    rw [Occurrence.stop, Nat.zero_add]
    exact isIn'.start_lt behind
  rw [search.unique search']
  refine not_endsOpen_of_notMem ?_
  rw [lastStop_cons, Occurrence.stop, Nat.zero_add]
  exact behind

theorem compositional_nesting : Closed nesting.text ∧
    OptionSet.scan (String.ofList nesting.text ++ completing) =
      (OptionSet.scan (String.ofList nesting.text)).insertAll
        ((scan completing.toList).map member) ∧
    (OptionSet.scan (String.ofList nesting.text ++ completing)).toList =
      [("A", ⟨"z", true⟩), ("C", ⟨"c", true⟩)] := by
  have closed : Closed (String.ofList nesting.text).toList := by
    rw [String.toList_ofList]
    exact closed_nesting
  have composes := (compositional.1 (String.ofList nesting.text)).2 closed completing
  exact ⟨closed_nesting, composes.inserted, by decide +kernel⟩

end Declaration

end BuildPanel
