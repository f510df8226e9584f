import BuildPanel.Proofs.Declaration.Search

/-!
The options of a text are those that its declarations declare: those taken by a search from the
left, each of which stands in the text. A declaration that stands in the text and does not give its
entry overlaps one that has been taken before it, or its name is declared again behind it.
-/

namespace BuildPanel

namespace Declaration

namespace Occurrence

variable {o : Occurrence} {name : String} {entry : OptionEntry}

/-- A declaration gives a name an entry: its description, and whether its token is `ON`. -/
structure Declares (o : Occurrence) (name : String) (entry : OptionEntry) : Prop where
  name_eq : name.toList = o.spelling.name
  description_eq : entry.description.toList = o.spelling.description
  value_iff : entry.value = true ↔ o.spelling.token = "ON".toList

theorem member_eq_iff : o.member = (name, entry) ↔ o.Declares name entry := by
  constructor
  · intro same
    cases same
    exact ⟨String.toList_ofList, String.toList_ofList, decide_eq_true_iff⟩
  · rintro ⟨name_eq, description_eq, value_iff⟩
    have value : decide (o.spelling.token = "ON".toList) = entry.value := by
      rw [Bool.eq_iff_iff, decide_eq_true_iff, value_iff]
    simp only [member, Declaration.member, Spelling.declaration, value, ← name_eq,
      ← description_eq, String.ofList_toList]

/-- The name that is declared. -/
theorem member_fst (o : Occurrence) : o.member.1 = String.ofList o.spelling.name := rfl

theorem member_fst_ne_iff {o' : Occurrence} (h : o.Declares name entry) :
    o'.member.1 ≠ name ↔ o'.spelling.name ≠ o.spelling.name := by
  rw [member_fst, ← h.name_eq]
  refine not_congr ⟨?_, ?_⟩
  · rintro rfl
    exact String.toList_ofList.symm
  · intro same
    rw [same, String.ofList_toList]

end Occurrence

variable {s : List Char} {found : List Occurrence} {options : OptionSet}

/-- The entry of a name is that of the last declaration of the name that has been taken. -/
theorem find?_members_iff {name : String} {entry : OptionEntry} :
    (OptionSet.ofList (found.map Occurrence.member)).find? name = some entry ↔
      ∃ before o after, found = before ++ o :: after ∧ o.Declares name entry ∧
        ∀ o' ∈ after, o'.spelling.name ≠ o.spelling.name := by
  rw [OptionSet.find?_ofList_eq_some_iff]
  constructor
  · rintro ⟨before, after, split_, others⟩
    obtain ⟨taken, later, rfl, rfl, same⟩ := List.map_eq_append_iff.1 split_
    obtain ⟨o, rest, rfl, declares, rfl⟩ := List.map_eq_cons_iff.1 same
    have declares := Occurrence.member_eq_iff.1 declares
    refine ⟨taken, o, rest, rfl, declares, fun o' later => ?_⟩
    exact (Occurrence.member_fst_ne_iff declares).1 (others _ (List.mem_map_of_mem later))
  · rintro ⟨before, o, after, rfl, declares, others⟩
    refine ⟨before.map Occurrence.member, after.map Occurrence.member, ?_, ?_⟩
    · rw [List.map_append, List.map_cons, Occurrence.member_eq_iff.2 declares]
    · intro m later
      obtain ⟨o', there, rfl⟩ := List.mem_map.1 later
      exact (Occurrence.member_fst_ne_iff declares).2 (others o' there)

/-- A declaration that has been taken gives its entry unless its name is declared again behind
it. -/
theorem Search.declared_or_again (h : Search s 0 found) {o : Occurrence} (taken : o ∈ found) :
    (OptionSet.ofList (found.map Occurrence.member)).find? o.member.1 = some o.member.2 ∨
      ∃ o' ∈ found, o.stop ≤ o'.start ∧ o'.spelling.name = o.spelling.name := by
  obtain ⟨before, after, split_⟩ := List.append_of_mem taken
  by_cases again : ∃ o' ∈ after, o'.spelling.name = o.spelling.name
  · obtain ⟨o', later, same⟩ := again
    have ordered := h.pairwise
    rw [split_, List.pairwise_append, List.pairwise_cons] at ordered
    refine .inr ⟨o', ?_, ordered.2.1.1 o' later, same⟩
    rw [split_]
    exact List.mem_append_right _ (List.mem_cons_of_mem _ later)
  · refine .inl (find?_members_iff.2 ⟨before, o, after, split_, ?_, ?_⟩)
    · exact Occurrence.member_eq_iff.1 rfl
    · exact fun o' later same => again ⟨o', later, same⟩

/-- The options of a text are inserted as a search of the text takes their declarations. -/
theorem exists_search_scan (text : String) : ∃ found, Search text.toList 0 found ∧
    OptionSet.scan text = .ofList (found.map Occurrence.member) := by
  obtain ⟨found, search, scanned⟩ := Search.exists_search text.toList 0
  refine ⟨found, search, ?_⟩
  rw [List.drop_zero] at scanned
  rw [OptionSet.scan, scanned, List.map_map]
  rfl

/-- What has been scanned, and from what. -/
structure Scanned (text : List Char) (found : List Occurrence) (options : OptionSet) : Prop where
  /-- At most one declaration begins at a place. -/
  unambiguous : ∀ o o' : Occurrence, o.In text → o'.In text → o.start = o'.start → o = o'
  /-- A search from the left takes what has been found, and nothing else. -/
  search : ∀ found', Search text 0 found' ↔ found' = found
  /-- The options are inserted in the order of what has been found. -/
  folded : options = .ofList (found.map Occurrence.member)
  /-- A name stands where it has been found first. -/
  ordered : options.names = (found.map fun o => String.ofList o.spelling.name).eraseDups
  /-- Every entry comes from a declaration that stands in the text, the last one of its name. -/
  declared : ∀ name entry, options.find? name = some entry ↔
    ∃ before o after, found = before ++ o :: after ∧ o.In text ∧ o.Declares name entry ∧
      ∀ o' ∈ after, o'.spelling.name ≠ o.spelling.name
  /-- A declaration that stands in the text and does not give its entry overlaps one that has been
  taken before it, or its name is declared again behind it. -/
  missed : ∀ o : Occurrence, o.In text → options.find? o.member.1 = some o.member.2 ∨
    (∃ o' ∈ found, o'.start < o.start ∧ o.start < o'.stop) ∨
    ∃ o' ∈ found, o.stop ≤ o'.start ∧ o'.spelling.name = o.spelling.name

theorem Search.scanned (h : Search s 0 found) :
    Scanned s found (.ofList (found.map Occurrence.member)) := by
  constructor
  case unambiguous => exact fun o o' isIn isIn' same => isIn.eq_of_start isIn' same
  case search =>
    intro found'
    constructor
    · exact fun h' => h'.unique h
    · rintro rfl
      exact h
  case folded => rfl
  case ordered =>
    rw [OptionSet.names_ofList, List.map_map]
    rfl
  case declared =>
    intro name entry
    rw [find?_members_iff]
    constructor
    · rintro ⟨before, o, after, split_, declares, others⟩
      have taken : o ∈ found := by
        rw [split_]
        exact List.mem_append_right _ List.mem_cons_self
      exact ⟨before, o, after, split_, h.isIn_of_mem taken, declares, others⟩
    · rintro ⟨before, o, after, split_, -, declares, others⟩
      exact ⟨before, o, after, split_, declares, others⟩
  case missed =>
    intro o isIn
    rcases h.taken_or_overlaps isIn (Nat.zero_le _) with taken | overlaps
    · rcases h.declared_or_again taken with given | again
      · exact .inl given
      · exact .inr (.inr again)
    · exact .inr (.inl overlaps)

/-- The options scanned in a text are those that its declarations declare. -/
theorem exists_scanned (text : String) :
    ∃ found, Scanned text.toList found (OptionSet.scan text) := by
  obtain ⟨found, search, options⟩ := exists_search_scan text
  refine ⟨found, ?_⟩
  rw [options]
  exact search.scanned

end Declaration

end BuildPanel
