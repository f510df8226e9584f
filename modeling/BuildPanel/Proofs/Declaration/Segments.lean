import BuildPanel.Proofs.Declaration.Crossing

/-!
Texts made of segments, one below the other, each of which is a declaration or begins like one and
declares nothing. A segment that declares nothing can still disturb the others: if it breaks off
inside its description, the description goes on to the next double quote, in a later segment, and
ends as a declaration if white space, a word and a parenthesis come after that quote.

This is the only way: a search finds the declared segments where they stand, and nothing else, iff
no segment is completed in this way.
-/

namespace BuildPanel

namespace Declaration

/-- A text without declarations contains no spelling. -/
theorem not_in_of_scan_eq_empty {t : List Char}
    (nothing : OptionSet.scan (String.ofList t) = .empty) (o : Occurrence) : ¬ o.In t := by
  obtain ⟨found, search, options⟩ := exists_search_scan (String.ofList t)
  rw [String.toList_ofList] at search
  intro isIn
  obtain ⟨first, taken, -⟩ := search.exists_start_le isIn (Nat.zero_le _)
  have names := OptionSet.names_ofList (found.map Occurrence.member)
  rw [← options, nothing, OptionSet.names_empty] at names
  cases found with
  | nil => cases taken
  | cons o' later =>
    rw [List.map_cons, List.map_cons, List.eraseDups_cons] at names
    cases names

/-- A piece of a text that is a declaration, or begins like one and declares nothing. -/
inductive Segment where
  | declared (w : Spelling)
  | malformed (text : List Char) (begins : keyword <+: text)
      (nothing : OptionSet.scan (String.ofList text) = .empty)

namespace Segment

def text : Segment → List Char
  | declared w => w.text
  | malformed t _ _ => t

def spelling? : Segment → Option Spelling
  | declared w => some w
  | malformed _ _ _ => none

theorem keyword_prefix (segment : Segment) : keyword <+: segment.text := by
  cases segment with
  | declared w => exact List.prefix_append _ _
  | malformed t begins _ => exact begins

/-- The segments, each on lines of its own. -/
def joined (segments : List Segment) : List Char :=
  ['\n'].intercalate (segments.map text)

/-- What comes after a segment. -/
def following : List Segment → List Char
  | [] => []
  | segment :: rest => '\n' :: joined (segment :: rest)

theorem joined_cons (segment : Segment) (rest : List Segment) :
    joined (segment :: rest) = segment.text ++ following rest := by
  cases rest with
  | nil => simp [joined, following]
  | cons next rest => simp [joined, following, List.intercalate]

theorem joined_eq_keyword_append (segment : Segment) (rest : List Segment) :
    ∃ s, joined (segment :: rest) = keyword ++ s := by
  obtain ⟨more, text⟩ := segment.keyword_prefix
  exact ⟨more ++ following rest, by rw [joined_cons, ← text, List.append_assoc]⟩

/-- Where the declared segments stand in a text that has the segments from a place on. -/
def places : Nat → List Segment → List Occurrence
  | _, [] => []
  | i, declared w :: rest => ⟨i, w⟩ :: places (i + w.text.length + 1) rest
  | i, malformed t _ _ :: rest => places (i + t.length + 1) rest

/-- What the declared segments declare. -/
def members (segments : List Segment) : List (String × OptionEntry) :=
  (segments.filterMap spelling?).map fun w => w.declaration.member

/-- A segment breaks off inside its description, and what comes after it ends the declaration. -/
def Completed (segments : List Segment) : Prop :=
  ∃ before t begins nothing after, segments = before ++ malformed t begins nothing :: after ∧
    BreaksOff t ∧ Completes (joined after)

@[simp]
theorem not_completed_nil : ¬ Completed [] := by
  rintro ⟨before, _, _, _, _, split_, -⟩
  cases before <;> cases split_

@[simp]
theorem completed_declared_iff {w : Spelling} {rest : List Segment} :
    Completed (declared w :: rest) ↔ Completed rest := by
  constructor
  · rintro ⟨before, t, begins, nothing, after, split_, breaks, completes⟩
    cases before with
    | nil => cases split_
    | cons first before =>
      obtain ⟨-, rfl⟩ := List.cons.inj split_
      exact ⟨before, t, begins, nothing, after, rfl, breaks, completes⟩
  · rintro ⟨before, t, begins, nothing, after, rfl, breaks, completes⟩
    exact ⟨declared w :: before, t, begins, nothing, after, rfl, breaks, completes⟩

@[simp]
theorem completed_malformed_iff {t : List Char} {begins : keyword <+: t}
    {nothing : OptionSet.scan (String.ofList t) = .empty} {rest : List Segment} :
    Completed (malformed t begins nothing :: rest) ↔
      BreaksOff t ∧ Completes (joined rest) ∨ Completed rest := by
  constructor
  · rintro ⟨before, t', begins', nothing', after, split_, breaks, completes⟩
    cases before with
    | nil =>
      cases split_
      exact .inl ⟨breaks, completes⟩
    | cons first before =>
      obtain ⟨-, rfl⟩ := List.cons.inj split_
      exact .inr ⟨before, t', begins', nothing', after, rfl, breaks, completes⟩
  · rintro (⟨breaks, completes⟩ | ⟨before, t', begins', nothing', after, rfl, breaks, completes⟩)
    · exact ⟨[], t, begins, nothing, rest, rfl, breaks, completes⟩
    · exact ⟨malformed t begins nothing :: before, t', begins', nothing', after, rfl, breaks,
        completes⟩

variable {s : List Char} {i : Nat} {segment : Segment} {rest segments : List Segment}
  {o : Occurrence}

/-- What comes after a segment and its line end are the segments after it. -/
theorem drop_succ (text : s.drop i = segment.text ++ following rest) :
    s.drop (i + segment.text.length + 1) = joined rest := by
  have after : s.drop (i + segment.text.length) = following rest := by
    rw [← List.drop_drop, text, List.drop_left]
  rw [← List.drop_drop, after]
  cases rest <;> rfl

/-- No declaration begins with a line end. -/
theorem not_in_following (isIn : o.In s) (start : s.drop o.start = following rest) : False := by
  have text := isIn.drop_eq
  rw [start] at text
  cases rest with
  | nil =>
    obtain ⟨empty, -⟩ := List.append_eq_nil_iff.1 text.symm
    exact absurd (List.append_eq_nil_iff.1 empty).1 (by decide)
  | cons next rest => exact absurd (List.cons.inj text).1 (by decide)

/-- A declaration that begins in a malformed segment is completed by what comes after it. -/
theorem completed_of_in {t : List Char} (nothing : OptionSet.scan (String.ofList t) = .empty)
    (text : s.drop i = t ++ following rest) (isIn : o.In s) (ge : i ≤ o.start)
    (le : o.start ≤ i + t.length) : BreaksOff t ∧ Completes (joined rest) := by
  obtain ⟨k, start⟩ := Nat.exists_eq_add_of_le ge
  have inside : k ≤ t.length := by omega
  have fromHere : t.drop k ++ following rest = o.spelling.text ++ s.drop o.stop := by
    rw [← isIn.drop_eq, start, ← List.drop_drop, text, List.drop_append_of_le_length inside]
  have outside : ¬ o.spelling.text <+: t.drop k := not_in_of_scan_eq_empty nothing ⟨k, o.spelling⟩
  rcases List.append_eq_append_iff.1 fromHere with ⟨v, crosses, after⟩ | ⟨v, within, -⟩
  · cases v with
    | nil =>
      rw [List.append_nil] at crosses
      exact absurd (crosses ▸ List.prefix_refl _) outside
    | cons c v =>
      cases rest with
      | nil => cases after
      | cons next rest =>
        obtain ⟨rfl, continues⟩ := List.cons.inj after
        obtain ⟨more, starts⟩ := joined_eq_keyword_append next rest
        obtain ⟨breaks, completes⟩ := breaksOff_of_crossing crosses (continues.symm.trans starts)
        refine ⟨?_, continues ▸ completes⟩
        have := breaks.append_left (t.take k)
        rwa [List.take_append_drop] at this
  · exact absurd (within ▸ List.prefix_append _ _) outside

/-- Where a segment that is broken off is completed a declaration begins. -/
theorem exists_in_of_completed {t : List Char} (text : s.drop i = t ++ following rest)
    (breaks : BreaksOff t) (completes : Completes (joined rest)) :
    ∃ o : Occurrence, o.In s ∧ i ≤ o.start ∧ o.start ≤ i + t.length := by
  obtain ⟨before, name, gap, d₁, rfl, name_, gap_, quoteless₁⟩ := breaks
  obtain ⟨d₂, space, token, more, completion, quoteless₂, space_, token_⟩ := completes
  have description : IsRun (· ≠ '"') (d₁ ++ '\n' :: d₂) := by
    refine ⟨by simp, fun c inside => ?_⟩
    rw [List.mem_append, List.mem_cons] at inside
    refine decide_eq_true ?_
    rintro rfl
    rcases inside with first | line | second
    · exact quoteless₁ first
    · exact absurd line (by decide)
    · exact quoteless₂ second
  let w : Spelling :=
    ⟨name, gap, d₁ ++ '\n' :: d₂, space, token, name_, gap_, description, space_, token_⟩
  refine ⟨⟨i + before.length, w⟩, ?_, Nat.le_add_right _ _, ?_⟩
  · cases rest with
    | nil => exact absurd completion (by simp [joined])
    | cons next rest =>
      refine ⟨more, ?_⟩
      rw [← List.drop_drop, text, following, completion, List.append_assoc, List.drop_left,
        w.text_append]
      simp [w]
  · simp only [List.length_append]
    omega

theorem le_start_of_mem_places (there : o ∈ places i segments) : i ≤ o.start := by
  induction segments generalizing i with
  | nil => cases there
  | cons segment rest ih =>
    cases segment with
    | declared w =>
      rcases List.mem_cons.1 there with rfl | later
      · exact Nat.le_refl _
      · have := ih later
        omega
    | malformed t _ _ =>
      have := ih there
      omega

/-- A search takes the declared segments where they stand if no segment is completed. -/
theorem search_places (apart : ¬ Completed segments) (text : s.drop i = joined segments) :
    Search s i (places i segments) := by
  induction segments generalizing i with
  | nil =>
    refine .ended fun o isIn => ?_
    have short := List.drop_eq_nil_iff.1 text
    have long := isIn.stop_le
    have some_ := o.start_lt_stop
    omega
  | cons segment rest ih =>
    rw [joined_cons] at text
    cases segment with
    | declared w =>
      rw [completed_declared_iff] at apart
      have later := ih apart (drop_succ text)
      have isIn : Occurrence.In ⟨i, w⟩ s := ⟨following rest, text.symm⟩
      refine .found isIn (Nat.le_refl _) (fun _ _ ge => ge) (later.of_later (Nat.le_succ _) ?_)
      intro o isIn' ge
      rcases Nat.lt_or_eq_of_le ge with lt | start
      · exact lt
      · have line : s.drop o.start = following rest := by
          rw [← start, Occurrence.stop, ← List.drop_drop, text]
          exact List.drop_left
        exact (not_in_following isIn' line).elim
    | malformed t begins nothing =>
      rw [completed_malformed_iff, not_or] at apart
      have later := ih apart.2 (drop_succ text)
      refine later.of_later (Nat.le_trans (Nat.le_add_right _ _) (Nat.le_succ _)) ?_
      -- What begins in this segment would be completed by what comes after it.
      intro o isIn ge
      exact Nat.lt_of_not_le fun le => apart.1 (completed_of_in nothing text isIn ge le)

/-- If a segment is completed, a search takes something else. -/
theorem not_completed_of_search (text : s.drop i = joined segments)
    (search : Search s i (places i segments)) : ¬ Completed segments := by
  induction segments generalizing i with
  | nil => exact not_completed_nil
  | cons segment rest ih =>
    rw [joined_cons] at text
    have behind : ∀ o ∈ places (i + segment.text.length + 1) rest,
        i + segment.text.length + 1 ≤ o.start := fun o => le_start_of_mem_places
    cases segment with
    | declared w =>
      rw [completed_declared_iff]
      cases search with
      | found _ _ _ later => exact ih (drop_succ text) (later.to_later (Nat.le_succ _) behind)
    | malformed t begins nothing =>
      have le : i ≤ i + t.length + 1 := Nat.le_trans (Nat.le_add_right _ _) (Nat.le_succ _)
      rw [completed_malformed_iff, not_or]
      refine ⟨?_, ih (drop_succ text) (search.to_later le behind)⟩
      -- The search would take what begins in this segment before any segment after it.
      rintro ⟨breaks, completes⟩
      obtain ⟨o, isIn, ge, within⟩ := exists_in_of_completed text breaks completes
      obtain ⟨first, there, before⟩ := search.exists_start_le isIn ge
      have := behind first there
      omega

theorem map_member_places (i : Nat) (segments : List Segment) :
    (places i segments).map Occurrence.member = members segments := by
  induction segments generalizing i with
  | nil => rfl
  | cons segment rest ih =>
    cases segment with
    | declared w => exact congrArg _ (ih _)
    | malformed t _ _ => exact ih _

/-- Unless a segment is completed, the options of the segments are those of the declared ones. A
search takes the declared segments where they stand in exactly these cases. -/
theorem scan_joined (segments : List Segment)
    (distinct : ((members segments).map Prod.fst).Nodup) :
    (¬ Completed segments →
      (OptionSet.scan (String.ofList (joined segments))).toList = members segments) ∧
    (Search (joined segments) 0 (places 0 segments) ↔ ¬ Completed segments) := by
  have search_iff : Search (joined segments) 0 (places 0 segments) ↔ ¬ Completed segments :=
    ⟨not_completed_of_search rfl, fun apart => search_places apart rfl⟩
  refine ⟨fun apart => ?_, search_iff⟩
  obtain ⟨found, search, options⟩ := exists_search_scan (String.ofList (joined segments))
  rw [String.toList_ofList] at search
  obtain rfl := search.unique (search_iff.2 apart)
  rw [options, map_member_places, OptionSet.toList_ofList distinct]

/-- A list in which a segment lacks its closing quote and what comes after it does not complete
it. -/
def quoteless : List Segment :=
  [ .declared (.mk "GOOD".toList " ".toList "first".toList " ".toList "ON".toList),
    .malformed "option(MISSING_QUOTE \"never closed ON)".toList (by decide) (by decide +kernel),
    .malformed "option(NO_DEFAULT \"missing token\")".toList (by decide) (by decide +kernel),
    .declared (.mk "OTHER".toList "\n  ".toList "second".toList "\n  ".toList "OFF".toList) ]

theorem not_completed_quoteless : ¬ Completed quoteless := by
  simp only [quoteless, completed_declared_iff, completed_malformed_iff, not_completed_nil,
    or_false, not_or, not_and]
  constructor
  · intro _
    decide +kernel
  · intro _
    decide +kernel

theorem scan_joined_quoteless :
    (OptionSet.scan (String.ofList (joined quoteless))).toList =
      [("GOOD", ⟨"first", true⟩), ("OTHER", ⟨"second", false⟩)] := by
  have distinct : ((members quoteless).map Prod.fst).Nodup := by decide +kernel
  rw [(scan_joined quoteless distinct).1 not_completed_quoteless]
  decide +kernel

/-- A segment that is completed by the quote that opens the description of the next one. -/
def unclosed : List Segment :=
  [ .malformed "option(A \"x".toList (by decide) (by decide +kernel),
    .declared (.mk "B".toList " ".toList " ON)".toList " ".toList "ON".toList) ]

theorem scan_joined_unclosed :
    ((members unclosed).map Prod.fst).Nodup ∧ members unclosed = [("B", ⟨" ON)", true⟩)] ∧
      (OptionSet.scan (String.ofList (joined unclosed))).toList =
        [("A", ⟨"x\noption(B ", true⟩)] := by
  decide +kernel

end Segment

end Declaration

end BuildPanel
