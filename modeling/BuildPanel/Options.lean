/-!
Build options: named switches with a description and a value, kept in the order in which their
names first appeared.

Main statements: every set lists a name once; inserting keeps the position of a known name and
appends a new one; merging with saved values changes values only.
-/

namespace BuildPanel

structure OptionEntry where
  description : String
  value : Bool
  deriving DecidableEq, Repr, Inhabited

namespace OptionEntries

/-- Replaces the entry of a known name where it stands; a new name goes to the end. -/
def put (name : String) (entry : OptionEntry) :
    List (String × OptionEntry) → List (String × OptionEntry)
  | [] => [(name, entry)]
  | (n, e) :: rest => if n = name then (name, entry) :: rest else (n, e) :: put name entry rest

/-- The names after an insertion: as before, or with the new one at the end. -/
theorem names_put (name : String) (entry : OptionEntry) (members : List (String × OptionEntry)) :
    (put name entry members).map Prod.fst =
      if name ∈ members.map Prod.fst then members.map Prod.fst
      else members.map Prod.fst ++ [name] := by
  induction members with
  | nil => simp [put]
  | cons m rest ih =>
    obtain ⟨n, e⟩ := m
    by_cases h : n = name
    · simp [put, h]
    · have h' : ¬ name = n := fun eq => h eq.symm
      simp only [put, if_neg h, List.map_cons, ih, List.mem_cons, h', false_or]
      split <;> simp

theorem nodup_names_put (name : String) (entry : OptionEntry)
    {members : List (String × OptionEntry)} (h : (members.map Prod.fst).Nodup) :
    ((put name entry members).map Prod.fst).Nodup := by
  rw [names_put]
  split
  · exact h
  · rename_i absent
    rw [List.nodup_append]
    refine ⟨h, by simp, ?_⟩
    intro a ha b hb
    rw [List.mem_singleton] at hb
    exact fun eq => absent (hb ▸ eq ▸ ha)

def find? (name : String) : List (String × OptionEntry) → Option OptionEntry
  | [] => none
  | (n, e) :: rest => if n = name then some e else find? name rest

theorem find?_put_self (name : String) (entry : OptionEntry)
    (members : List (String × OptionEntry)) : find? name (put name entry members) = some entry := by
  induction members with
  | nil => simp [put, find?]
  | cons m rest ih =>
    by_cases h : m.1 = name <;> simp [put, find?, h, ih]

theorem find?_put_ne {name other : String} (entry : OptionEntry)
    (members : List (String × OptionEntry)) (h : other ≠ name) :
    find? other (put name entry members) = find? other members := by
  induction members with
  | nil => simp [put, find?, Ne.symm h]
  | cons m rest ih =>
    by_cases hm : m.1 = name
    · simp [put, find?, hm, Ne.symm h]
    · simp only [put, if_neg hm, find?, ih]

end OptionEntries

/-- A set of options in which every name occurs once. The order is that in which the names were
first inserted. -/
structure OptionSet where
  toList : List (String × OptionEntry)
  nodup : (toList.map Prod.fst).Nodup
  deriving DecidableEq

namespace OptionSet

@[ext]
theorem ext {s t : OptionSet} (h : s.toList = t.toList) : s = t := by
  cases s; cases t; cases h; rfl

def empty : OptionSet :=
  ⟨[], List.nodup_nil⟩

instance : Inhabited OptionSet := ⟨empty⟩

def names (s : OptionSet) : List String :=
  s.toList.map Prod.fst

def find? (s : OptionSet) (name : String) : Option OptionEntry :=
  OptionEntries.find? name s.toList

/-- Adds an option. A name that is already present keeps its place and takes the new entry. -/
def insert (s : OptionSet) (name : String) (entry : OptionEntry) : OptionSet :=
  ⟨OptionEntries.put name entry s.toList, OptionEntries.nodup_names_put name entry s.nodup⟩

/-- The set made by inserting the members of a list one after another. -/
def ofList (members : List (String × OptionEntry)) : OptionSet :=
  members.foldl (fun s m => s.insert m.1 m.2) empty

/-- Changes entries but neither names nor order. -/
def mapEntries (s : OptionSet) (f : String → OptionEntry → OptionEntry) : OptionSet where
  toList := s.toList.map fun m => (m.1, f m.1 m.2)
  nodup := by
    have : (s.toList.map fun m => (m.1, f m.1 m.2)).map Prod.fst = s.toList.map Prod.fst := by
      simp [List.map_map, Function.comp_def]
    rw [this]
    exact s.nodup

@[simp]
theorem names_empty : empty.names = [] := rfl

@[simp]
theorem names_mapEntries (s : OptionSet) (f : String → OptionEntry → OptionEntry) :
    (s.mapEntries f).names = s.names := by
  simp [names, mapEntries, List.map_map, Function.comp_def]

theorem names_insert (s : OptionSet) (name : String) (entry : OptionEntry) :
    (s.insert name entry).names = if name ∈ s.names then s.names else s.names ++ [name] :=
  OptionEntries.names_put name entry s.toList

@[simp]
theorem find?_insert_self (s : OptionSet) (name : String) (entry : OptionEntry) :
    (s.insert name entry).find? name = some entry :=
  OptionEntries.find?_put_self name entry s.toList

theorem find?_insert_ne (s : OptionSet) {name other : String} (entry : OptionEntry)
    (h : other ≠ name) : (s.insert name entry).find? other = s.find? other :=
  OptionEntries.find?_put_ne entry s.toList h

/-- The scanned options with the values of a snapshot: names, order and descriptions are those
scanned, a value is the saved one if the snapshot has the name. -/
def merge (scanned : OptionSet) : Option OptionSet → OptionSet
  | none => scanned
  | some saved => scanned.mapEntries fun name entry =>
      match saved.find? name with
      | some kept => { entry with value := kept.value }
      | none => entry

@[simp]
theorem names_merge (scanned : OptionSet) (saved : Option OptionSet) :
    (scanned.merge saved).names = scanned.names := by
  cases saved <;> simp [merge]

end OptionSet

end BuildPanel
