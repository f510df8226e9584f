import BuildPanel.Options

/-!
Sets of options made from lists of members. Inserting the members one after another lists each name
once, where it stands first, with the entry that comes last. A list without repeated names is kept
as it is.
-/

namespace BuildPanel

namespace OptionSet

theorem put_of_absent {name : String} {members : List (String × OptionEntry)}
    (absent : name ∉ members.map Prod.fst) (entry : OptionEntry) :
    OptionEntries.put name entry members = members ++ [(name, entry)] := by
  induction members with
  | nil => rfl
  | cons m rest ih =>
    rw [List.map_cons, List.mem_cons, not_or] at absent
    rw [OptionEntries.put, if_neg (Ne.symm absent.1), ih absent.2, List.cons_append]

/-- Inserts the members of a list into a set one after another. -/
def insertAll (s : OptionSet) (members : List (String × OptionEntry)) : OptionSet :=
  members.foldl (fun s m => s.insert m.1 m.2) s

theorem insertAll_cons (s : OptionSet) (m : String × OptionEntry)
    (members : List (String × OptionEntry)) :
    s.insertAll (m :: members) = (s.insert m.1 m.2).insertAll members := rfl

theorem ofList_eq_insertAll (members : List (String × OptionEntry)) :
    ofList members = empty.insertAll members := rfl

theorem find?_insertAll (s : OptionSet) (members : List (String × OptionEntry)) (name : String) :
    (s.insertAll members).find? name =
      ((members.reverse.find? fun m => m.1 = name).map Prod.snd).or (s.find? name) := by
  induction members generalizing s with
  | nil => rfl
  | cons m members ih =>
    rw [insertAll_cons, ih, List.reverse_cons, List.find?_append]
    cases later : members.reverse.find? fun m => m.1 = name with
    | some m' => rfl
    | none =>
      by_cases same : m.1 = name
      · subst same
        simp
      · rw [find?_insert_ne s m.2 (Ne.symm same)]
        simp [same]

theorem find?_ofList (members : List (String × OptionEntry)) (name : String) :
    (ofList members).find? name =
      (members.reverse.find? fun m => m.1 = name).map Prod.snd := by
  rw [ofList_eq_insertAll, find?_insertAll]
  exact Option.or_none

/-- The entry of a name is that of the last member with the name. -/
theorem find?_ofList_eq_some_iff {members : List (String × OptionEntry)} {name : String}
    {entry : OptionEntry} : (ofList members).find? name = some entry ↔
      ∃ before after, members = before ++ (name, entry) :: after ∧ ∀ m ∈ after, m.1 ≠ name := by
  rw [find?_ofList, Option.map_eq_some_iff]
  constructor
  · rintro ⟨m, found, rfl⟩
    obtain ⟨same, before, after, split_, others⟩ := List.find?_eq_some_iff_append.1 found
    obtain rfl : m.1 = name := of_decide_eq_true same
    refine ⟨after.reverse, before.reverse, ?_, ?_⟩
    · rw [← List.reverse_reverse members, split_]
      simp
    · intro m' later
      simpa using others m' (List.mem_reverse.1 later)
  · rintro ⟨before, after, rfl, others⟩
    refine ⟨(name, entry), List.find?_eq_some_iff_append.2 ⟨by simp, after.reverse,
      before.reverse, by simp, ?_⟩, rfl⟩
    intro m later
    simpa using others m (List.mem_reverse.1 later)

theorem names_insertAll (s : OptionSet) (members : List (String × OptionEntry)) :
    (s.insertAll members).names =
      s.names ++ ((members.map Prod.fst).filter (· ∉ s.names)).eraseDups := by
  induction members generalizing s with
  | nil => simp [insertAll]
  | cons m members ih =>
    rw [insertAll_cons, ih, names_insert, List.map_cons]
    by_cases known : m.1 ∈ s.names
    · simp [known]
    · rw [if_neg known, List.filter_cons_of_pos (by simpa using known), List.eraseDups_cons,
        List.filter_filter, List.append_assoc, List.singleton_append]
      congr 3
      refine List.filter_congr fun name _ => ?_
      by_cases same : name = m.1 <;> simp [same]

/-- The names stand in the order in which they come first. -/
theorem names_ofList (members : List (String × OptionEntry)) :
    (ofList members).names = (members.map Prod.fst).eraseDups := by
  have all : (members.map Prod.fst).filter (· ∉ empty.names) = members.map Prod.fst :=
    List.filter_eq_self.2 (by simp)
  rw [ofList_eq_insertAll, names_insertAll, all]
  rfl

theorem toList_insertAll {s : OptionSet} {members : List (String × OptionEntry)}
    (nodup : ((s.toList ++ members).map Prod.fst).Nodup) :
    (s.insertAll members).toList = s.toList ++ members := by
  induction members generalizing s with
  | nil => simp [insertAll]
  | cons m members ih =>
    have absent : m.1 ∉ s.toList.map Prod.fst := by
      rw [List.map_append, List.nodup_append] at nodup
      exact fun present => nodup.2.2 m.1 present m.1 List.mem_cons_self rfl
    have inserted : (s.insert m.1 m.2).toList = s.toList ++ [m] := put_of_absent absent m.2
    rw [insertAll_cons, ih (by simpa [inserted] using nodup), inserted]
    simp

/-- A list in which no name is repeated becomes a set as it is. -/
theorem toList_ofList {members : List (String × OptionEntry)}
    (nodup : (members.map Prod.fst).Nodup) : (ofList members).toList = members :=
  toList_insertAll nodup

theorem ofList_toList (s : OptionSet) : ofList s.toList = s :=
  OptionSet.ext (toList_ofList s.nodup)

/-- What is found for a name is what is listed with it. -/
theorem find?_eq_some_iff {s : OptionSet} {name : String} {entry : OptionEntry} :
    s.find? name = some entry ↔ (name, entry) ∈ s.toList := by
  obtain ⟨members, nodup⟩ := s
  induction members with
  | nil => simp [find?, OptionEntries.find?]
  | cons m rest ih =>
    obtain ⟨n, e⟩ := m
    rw [List.map_cons, List.nodup_cons] at nodup
    have later := ih nodup.2
    dsimp only [find?] at later ⊢
    by_cases same : n = name
    · subst same
      have absent : (n, entry) ∉ rest := fun h =>
        nodup.1 (List.mem_map.2 ⟨(n, entry), h, rfl⟩)
      simp [OptionEntries.find?, absent, eq_comm]
    · simp [OptionEntries.find?, same, later, Ne.symm same]

theorem toList_eq_map_names (s : OptionSet) :
    s.toList = s.names.map fun name => (name, (s.find? name).getD default) := by
  rw [names, List.map_map]
  refine (List.map_id s.toList).symm.trans (List.map_congr_left fun m listed => ?_)
  have found : s.find? m.1 = some m.2 := find?_eq_some_iff.2 listed
  simp [found]

/-- A set is known by its names in their order and what is found for each. -/
theorem ext_find? {s t : OptionSet} (names : s.names = t.names)
    (found : ∀ name, s.find? name = t.find? name) : s = t := by
  refine OptionSet.ext ?_
  rw [toList_eq_map_names s, toList_eq_map_names t, names, funext found]

/-- The same options with other values. -/
def setValues (s : OptionSet) (value : String → Bool) : OptionSet :=
  s.mapEntries fun name entry => { entry with value := value name }

/-- What has been scanned keeps its names, order and descriptions, whatever values have been saved
and whatever values are set. -/
theorem toList_setValues_merge (scanned : OptionSet) (saved : Option OptionSet)
    (value : String → Bool) : ((scanned.merge saved).setValues value).toList =
      scanned.toList.map fun m => (m.1, ⟨m.2.description, value m.1⟩) := by
  cases saved with
  | none => rfl
  | some saved =>
    simp only [setValues, merge, mapEntries, List.map_map]
    refine List.map_congr_left fun m _ => ?_
    dsimp only [Function.comp_apply]
    cases saved.find? m.1 <;> rfl

/-- Values that are set in what has been merged, and saved in any order, are those that come out of
merging with them. -/
theorem merge_of_perm {scanned posted : OptionSet} {saved : Option OptionSet}
    {value : String → Bool}
    (h : posted.toList.Perm ((scanned.merge saved).setValues value).toList) :
    scanned.merge (some posted) = (scanned.merge saved).setValues value := by
  refine OptionSet.ext ?_
  rw [toList_setValues_merge] at h ⊢
  refine List.map_congr_left fun m hm => ?_
  have found : posted.find? m.1 = some ⟨m.2.description, value m.1⟩ := by
    exact find?_eq_some_iff.2 (h.mem_iff.2 (List.mem_map_of_mem hm))
  dsimp only
  rw [found]

end OptionSet

end BuildPanel
