import BuildPanel.Proofs.Options.Members

/-!
Merging scanned options with snapshots. The names, their order and their descriptions are those that
have been scanned, and a value is the saved one where the snapshot has the name. A snapshot counts
for these values only, so that merging with two snapshots one after the other is merging with the
second laid over the first.
-/

namespace BuildPanel

namespace OptionSet

variable {s a b t : OptionSet} {name : String}

/-- The value that a set gives to a name. -/
def value? (s : OptionSet) (name : String) : Option Bool :=
  (s.find? name).map OptionEntry.value

/-- A set has the entries of one snapshot and, for names that it lacks, those of another one. -/
def LaidOver (b a t : OptionSet) : Prop :=
  ∀ name, t.find? name = (b.find? name).or (a.find? name)

/-- Inserting the entries of one snapshot into another lays it over that one. -/
theorem laidOver_insertAll (b a : OptionSet) : LaidOver b a (a.insertAll b.toList) := by
  intro name
  rw [find?_insertAll, ← find?_ofList, ofList_toList]

theorem LaidOver.value?_eq (h : LaidOver b a t) (name : String) :
    t.value? name = (b.value? name).or (a.value? name) := by
  unfold value?
  rw [h name]
  cases b.find? name <;> rfl

theorem value?_of_find? {entry : OptionEntry} (h : s.find? name = some entry) :
    s.value? name = some entry.value :=
  congrArg (Option.map OptionEntry.value) h

theorem mem_names_of_find? {entry : OptionEntry} (h : s.find? name = some entry) :
    name ∈ s.names :=
  List.mem_map_of_mem (f := Prod.fst) (find?_eq_some_iff.1 h)

theorem find?_mapEntries (s : OptionSet) (f : String → OptionEntry → OptionEntry)
    (name : String) : (s.mapEntries f).find? name = (s.find? name).map (f name) := by
  obtain ⟨members, nodup⟩ := s
  dsimp only [find?, mapEntries]
  clear nodup
  induction members with
  | nil => rfl
  | cons m rest ih =>
    rw [List.map_cons, OptionEntries.find?, OptionEntries.find?]
    by_cases same : m.1 = name
    · rw [if_pos same, if_pos same, same]
      rfl
    · rw [if_neg same, if_neg same, ih]

/-- An entry after merging: the scanned description, and the saved value if there is one. -/
theorem find?_merge (s saved : OptionSet) (name : String) :
    (s.merge (some saved)).find? name =
      (s.find? name).map fun e => ⟨e.description, (saved.value? name).getD e.value⟩ := by
  rw [merge, find?_mapEntries]
  congr 1
  funext e
  unfold value?
  cases saved.find? name <;> rfl

/-- What a set is that comes out of merging with a snapshot. -/
structure Merged (s saved merged : OptionSet) : Prop where
  names : merged.names = s.names
  descriptions : ∀ name, (merged.find? name).map OptionEntry.description =
    (s.find? name).map OptionEntry.description
  values : ∀ name ∈ s.names, merged.value? name = (saved.value? name).or (s.value? name)

theorem merged_merge (s saved : OptionSet) : Merged s saved (s.merge (some saved)) where
  names := names_merge s (some saved)
  descriptions := by
    intro name
    rw [find?_merge, Option.map_map]
    rfl
  values := by
    intro name listed
    obtain ⟨m, there, rfl⟩ := List.mem_map.1 listed
    have found : s.find? m.1 = some m.2 := find?_eq_some_iff.2 there
    have merged := find?_merge s saved m.1
    rw [found, Option.map_some] at merged
    rw [value?_of_find? merged, value?_of_find? found]
    cases saved.value? m.1 <;> rfl

/-- Snapshots that give the same values to the scanned names are merged alike. -/
theorem merge_congr (same : ∀ name ∈ s.names, a.value? name = b.value? name) :
    s.merge (some a) = s.merge (some b) := by
  refine ext_find? ((names_merge _ _).trans (names_merge _ _).symm) fun name => ?_
  rw [find?_merge, find?_merge]
  cases found : s.find? name with
  | none => rfl
  | some entry => rw [same name (mem_names_of_find? found)]

/-- Merging twice is merging once with the later snapshot laid over the earlier one. -/
theorem merge_merge (s : OptionSet) (laid : LaidOver b a t) :
    (s.merge (some a)).merge (some b) = s.merge (some t) := by
  refine ext_find? (by rw [names_merge, names_merge, names_merge]) fun name => ?_
  rw [find?_merge, find?_merge, find?_merge, Option.map_map, laid.value?_eq]
  congr 1
  funext entry
  dsimp only [Function.comp_apply]
  cases b.value? name <;> rfl

theorem laidOver_self (a : OptionSet) : LaidOver a a a :=
  fun _ => Option.or_self.symm

/-- What can be said of merging one set with snapshots. -/
structure MergeLaws (s a b : OptionSet) : Prop where
  /-- Names, order and descriptions are kept, and the values of the snapshot are taken. -/
  once : Merged s a (s.merge (some a))
  /-- Two snapshots one after the other are the second laid over the first, which can always be
  done. -/
  twice : (∃ t, LaidOver b a t) ∧
    ∀ t, LaidOver b a t → (s.merge (some a)).merge (some b) = s.merge (some t)
  /-- The same snapshot again changes nothing. -/
  again : (s.merge (some a)).merge (some a) = s.merge (some a)
  /-- A snapshot counts only for the values of the names that have been scanned. -/
  looked : (∀ name ∈ s.names, a.value? name = b.value? name) → s.merge (some a) = s.merge (some b)

/-- The laws of merging, for every set and all snapshots. -/
theorem merge_laws (s a b : OptionSet) : MergeLaws s a b where
  once := merged_merge s a
  twice := ⟨⟨_, laidOver_insertAll b a⟩, fun _ laid => merge_merge s laid⟩
  again := merge_merge s (laidOver_self a)
  looked := merge_congr

/-- Options as they have been scanned. -/
def declared : OptionSet :=
  .ofList [("A", ⟨"a", true⟩), ("B", ⟨"b", false⟩), ("C", ⟨"c", true⟩)]

/-- A snapshot in another order, with other descriptions and a name that is declared no more. -/
def earlier : OptionSet :=
  .ofList [("C", ⟨"old", false⟩), ("gone", ⟨"", true⟩), ("A", ⟨"old", false⟩)]

/-- A snapshot that lacks a name. -/
def later : OptionSet :=
  .ofList [("B", ⟨"", true⟩), ("A", ⟨"", true⟩)]

/-- A snapshot with the values of the later one and, where it has none, of the earlier one. -/
def both : OptionSet :=
  .ofList [("C", ⟨"", false⟩), ("B", ⟨"", true⟩), ("A", ⟨"", true⟩)]

theorem merge_laws_overlapping :
    (declared.merge (some earlier)).merge (some later) = declared.merge (some both) ∧
      (declared.merge (some both)).toList =
        [("A", ⟨"a", true⟩), ("B", ⟨"b", true⟩), ("C", ⟨"c", false⟩)] := by
  have laid := laidOver_insertAll later earlier
  have same : ∀ name ∈ declared.names,
      (earlier.insertAll later.toList).value? name = both.value? name := by decide
  refine ⟨?_, by decide⟩
  rw [(merge_laws declared earlier later).twice.2 _ laid]
  exact (merge_laws declared _ both).looked same

end OptionSet

end BuildPanel
