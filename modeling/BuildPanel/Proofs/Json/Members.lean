import BuildPanel.Proofs.Json.Parts

/-!
Objects and lists. Their members are read one after another, each of them without a look further
than to the byte behind it. An object ends with its brace, so what stands behind an object is not
looked at at all.
-/

namespace BuildPanel.Json

variable {α β σ : Type} {s rest : Input}

/-! ### Names -/

/-- The name of a member, behind the byte in front of which it begins or with which it is parted
from the member before. -/
def readNameBehind (first : Bool) (b : UInt8) : Reader (List Char) := fun r =>
  if first then
    if b = 34 then readString r else .error (.at .keyNotString (b :: r))
  else if b = 44 then
    match skipSpace r with
    | [] => .error (.before .endInValue [])
    | c :: r' =>
      if c = 34 then readString r'
      else if c = 125 then .error (.at .trailingComma (c :: r'))
      else .error (.at .keyNotString (c :: r'))
  else .error (.at .expectedObjectCommaOrEnd (b :: r))

/-- What is looked for behind white space: the end of the object, or a further name. -/
def readNameHere (first : Bool) : Reader (Option (List Char)) := fun s =>
  match s with
  | [] => .error (.before .endInObject [])
  | b :: r =>
    if b = 125 then .ok (none, b :: r)
    else (readNameBehind first b r).map fun (text, rest) => (some text, rest)

theorem readName_eq (first : Bool) (s : Input) :
    readName first s = readNameHere first (skipSpace s) := by
  unfold readName readNameHere readNameBehind
  rcases skipSpace s with _ | ⟨b, r⟩
  · rfl
  · dsimp only
    split_ifs
    · rfl
    · rfl
    · rfl
    · rcases skipSpace r with _ | ⟨c, r'⟩
      · rfl
      · dsimp only
        split_ifs <;> rfl
    · rfl

theorem readMemberName_eq_ok {first : Bool} {found : Option (List Char) × Input} :
    readMemberName first s = .ok found ↔ readNameHere first (skipSpace s) = .ok found := by
  rw [← readName_eq]
  unfold readMemberName
  cases readName first s <;> simp

theorem local_readNameBehind (first : Bool) (b : UInt8) : Local (readNameBehind first b) := by
  unfold readNameBehind
  split_ifs
  · exact local_readString
  · exact Local.error _
  · refine Local.afterSpace _ (fun _ => rfl) ?_
    intro c
    split_ifs
    · exact local_readString
    · exact Local.error _
    · exact Local.error _
  · exact Local.error _

theorem local_readMemberName (first : Bool) : Local (readMemberName first) := by
  have name : Local (readName first) := by
    refine @Local.peekSpace _ (fun b s =>
      if b = 125 then .ok (none, s)
      else (readNameBehind first b (s.drop 1)).map fun (text, rest) => (some text, rest)) _ _
      (fun s => by rw [readName_eq]; rfl) ?_
    intro b
    split_ifs
    · exact Local.pure none
    · exact ((local_readNameBehind first b).map some).drop
  refine name.congr ?_
  intro s found
  rw [readName_eq, readMemberName_eq_ok]

/-- A further name takes bytes; without one, the input stands in front of the brace. -/
theorem readNameHere_ok {first : Bool} {name : Option (List Char)}
    (h : readNameHere first s = .ok (name, rest)) :
    match name with
    | some _ => rest.length < s.length
    | none => ∃ r, rest = 125 :: r := by
  cases s with
  | nil => cases h
  | cons b r =>
    dsimp only [readNameHere] at h
    split_ifs at h with brace
    · cases h
      exact ⟨r, by rw [brace]⟩
    · obtain ⟨⟨text, r'⟩, read, eq⟩ := map_eq_ok.1 h
      cases eq
      exact Nat.lt_succ_of_le ((local_readNameBehind first b).length_le read)

theorem length_lt_of_name {first : Bool} {name : List Char}
    (h : readMemberName first s = .ok (some name, rest)) : rest.length < s.length :=
  Nat.lt_of_lt_of_le (readNameHere_ok (readMemberName_eq_ok.1 h)) (length_skipSpace_le s)

theorem brace_of_no_name {first : Bool} (h : readMemberName first s = .ok (none, rest)) :
    ∃ r, rest = 125 :: r :=
  readNameHere_ok (readMemberName_eq_ok.1 h)

theorem local_readMember {read : Reader α} (name : List Char) (h : Local read) :
    Local (readMember name read) := by
  refine skips_readColon.before id (fun _ => rfl) (h.congr ?_)
  intro s found
  cases read s <;> simp

/-! ### Members of an object -/

/-- Nothing of what stands behind the bytes that are taken is looked at. -/
def Closed (read : Reader α) : Prop :=
  ∀ s value rest, read s = .ok (value, rest) →
    ∃ used, s = used ++ rest ∧ ∀ t, read (used ++ t) = .ok (value, t)

theorem Closed.error (f : Input → Failure) :
    Closed fun s => (.error (f s) : Except Failure (α × Input)) :=
  nofun

theorem Closed.afterSpace {next : UInt8 → Reader α} {whole : Reader α} (fault : Failure)
    (eq : ∀ s, whole s = match skipSpace s with | [] => .error fault | b :: r => next b r)
    (hnext : ∀ b, Closed (next b)) : Closed whole := by
  intro s value rest ok
  rw [eq] at ok
  obtain ⟨space, split_, again⟩ := skips_iff.1 skips_space s _ rfl
  rcases behind : skipSpace s with _ | ⟨b, r⟩
  · rw [behind] at ok
    cases ok
  · rw [behind] at ok split_ again
    obtain ⟨used, rfl, takes⟩ := hnext b r value rest ok
    refine ⟨space ++ b :: used, by rw [split_]; simp, ?_⟩
    intro t
    have here : skipSpace (space ++ b :: (used ++ t)) = b :: (used ++ t) :=
      Except.ok.inj (again _ rfl)
    rw [eq, List.append_assoc, List.cons_append, here]
    exact takes t

theorem Closed.near {read : Reader α} (h : Closed read) : Local read := by
  intro s value rest ok
  obtain ⟨used, rfl, takes⟩ := h s value rest ok
  exact ⟨used, rfl, fun t _ => takes t⟩

@[simp]
theorem settle_brace (r : Input) : settle (125 :: r) = r := rfl

/-- What ends in front of a brace is closed once the brace is taken. -/
theorem Local.settled {read : Reader α} (h : Local read)
    (ends : ∀ s value rest, read s = .ok (value, rest) → ∃ r, rest = 125 :: r) :
    Closed fun s => (read s).map fun (value, rest) => (value, settle rest) := by
  intro s value rest ok
  obtain ⟨⟨a, r⟩, found, eq⟩ := map_eq_ok.1 ok
  obtain ⟨r, rfl⟩ := ends s a _ found
  obtain ⟨used, rfl, takes⟩ := h s a _ found
  cases eq
  refine ⟨used ++ [125], by simp, ?_⟩
  intro t
  have again := takes (125 :: t) rfl
  dsimp only
  rw [List.append_assoc, List.singleton_append, again]
  rfl

/-- What follows the name of a member, if there is one: what it is at depends on the name. -/
def memberBehind (next : σ → List Char → Reader σ) (x : σ) :
    Option (List Char) → Reader ((Bool × σ) ⊕ σ)
  | none => fun rest => .ok (.inr x, rest)
  | some name => fun rest => (next x name rest).map fun (x, rest) => (.inl (false, x), rest)

/-- One step through the members of an object. -/
def memberStep (next : σ → List Char → Reader σ) : Bool × σ → Reader ((Bool × σ) ⊕ σ) :=
  fun (first, x) s =>
    match readMemberName first s with
    | .error f => .error f
    | .ok (name, rest) => memberBehind next x name rest

section MemberStep

variable {next : σ → List Char → Reader σ}

theorem local_memberStep (h : ∀ x name, Local (next x name)) (x : Bool × σ) :
    Local (memberStep next x) := by
  have behind : ∀ name, Local (memberBehind next x.2 name) := by
    rintro (_ | name)
    · exact Local.pure _
    · exact (h x.2 name).map fun x => Sum.inl (false, x)
  refine (local_readMemberName x.1).chain id ?_ behind
  intro s
  dsimp only [memberStep]
  rcases readMemberName x.1 s with f | ⟨name, rest⟩ <;> rfl

theorem memberStep_goes (h : ∀ x name, Local (next x name)) (x : Bool × σ) (s : Input)
    (x' : Bool × σ) (r : Input) (ok : memberStep next x s = .ok (.inl x', r)) :
    r.length < s.length := by
  dsimp only [memberStep] at ok
  rcases read : readMemberName x.1 s with f | ⟨_ | name, rest⟩
  · rw [read] at ok
    cases ok
  · rw [read] at ok
    cases ok
  · rw [read] at ok
    obtain ⟨⟨y, r'⟩, found, eq⟩ := map_eq_ok.1 ok
    cases eq
    exact Nat.lt_of_le_of_lt ((h x.2 name).length_le found) (length_lt_of_name read)

theorem memberStep_ends (x : Bool × σ) (s : Input) (a : σ) (r : Input)
    (ok : memberStep next x s = .ok (.inr a, r)) : ∃ r', r = 125 :: r' := by
  dsimp only [memberStep] at ok
  rcases read : readMemberName x.1 s with f | ⟨_ | name, rest⟩
  · rw [read] at ok
    cases ok
  · rw [read] at ok
    cases ok
    exact brace_of_no_name read
  · rw [read] at ok
    obtain ⟨_, _, eq⟩ := map_eq_ok.1 ok
    cases eq

/-- The members of an object, up to its brace and with it. -/
theorem closed_members (h : ∀ x name, Local (next x name)) (few : Input → Failure) (start : σ) :
    Closed fun s =>
      (steps (memberStep next) few (0 :: s) (true, start) s).map fun (x, rest) =>
        (x, settle rest) :=
  (Local.steps (local_memberStep h) (memberStep_goes h) few _ 0).settled
    fun _ _ _ => steps_ends memberStep_ends

end MemberStep

/-! ### Records -/

/-- What a known member of a record adds to the members that have been read. -/
def recordNext (a : Member α) (b : Member β) (x : Option α) (y : Option β) (name : List Char) :
    Reader (Option α × Option β) := fun rest =>
  if name = a.name.toList then
    if x.isSome then .error (.before (.mismatch (.duplicateMember a.name)) (settle rest))
    else (readMember name a.read rest).map fun (value, rest) => ((some value, y), rest)
  else if name = b.name.toList then
    if y.isSome then .error (.before (.mismatch (.duplicateMember b.name)) (settle rest))
    else (readMember name b.read rest).map fun (value, rest) => ((x, some value), rest)
  else
    (readMember name (fun s => (skipValue s).map ((), ·)) rest).map fun (_, rest) => ((x, y), rest)

theorem recordMembers_eq (a : Member α) (b : Member β) (bound : Input) (first : Bool)
    (x : Option α) (y : Option β) (s : Input) : recordMembers a b bound first x y s =
      steps (memberStep fun x => recordNext a b x.1 x.2) (.before .endInObject) bound
        (first, x, y) s := by
  induction bound generalizing first x y s with
  | nil => rfl
  | cons _ bound ih =>
    dsimp only [recordMembers, steps, memberStep, memberBehind, recordNext]
    rcases readMemberName first s with f | ⟨_ | name, rest⟩
    · rfl
    · rfl
    · dsimp only
      split_ifs
      · rfl
      · rcases readMember name a.read rest with f | ⟨value, rest⟩
        · rfl
        · exact ih _ _ _ rest
      · rfl
      · rcases readMember name b.read rest with f | ⟨value, rest⟩
        · rfl
        · exact ih _ _ _ rest
      · rcases readMember name (fun s => (skipValue s).map ((), ·)) rest with f | ⟨_, rest⟩
        · rfl
        · exact ih _ _ _ rest

theorem local_recordNext {a : Member α} {b : Member β} (ha : Local a.read) (hb : Local b.read)
    (x : Option α) (y : Option β) (name : List Char) : Local (recordNext a b x y name) := by
  unfold recordNext
  split_ifs
  · exact Local.error _
  · exact (local_readMember name ha).map fun value => (some value, y)
  · exact Local.error _
  · exact (local_readMember name hb).map fun value => (x, some value)
  · exact (local_readMember name skips_skipValue).map fun _ => (x, y)

/-- The record of the members that have been read, and of those that may be absent. -/
def recordFound (a : Member α) (b : Member β) (found : Option α × Option β) : Reader (α × β) :=
  fun s =>
    match found.1 <|> a.absent, found.2 <|> b.absent with
    | some x, some y => .ok ((x, y), s)
    | none, _ => .error (.before (.mismatch (.missingMember a.name)) s)
    | _, none => .error (.before (.mismatch (.missingMember b.name)) s)

theorem local_recordFound (a : Member α) (b : Member β) (found : Option α × Option β) :
    Local (recordFound a b found) := by
  unfold recordFound
  rcases found.1 <|> a.absent with _ | x <;> rcases found.2 <|> b.absent with _ | y
  · exact Local.error _
  · exact Local.error _
  · exact Local.error _
  · exact Local.pure (x, y)

theorem local_recordObject {a : Member α} {b : Member β} (ha : Local a.read)
    (hb : Local b.read) : Local (recordObject a b) := by
  have members := closed_members (fun x => local_recordNext ha hb x.1 x.2)
    (.before .endInObject) (none, none)
  refine members.near.chain id ?_ (local_recordFound a b)
  intro s
  dsimp only [recordObject]
  rw [recordMembers_eq]
  rcases steps _ _ _ _ s with f | ⟨⟨x, y⟩, rest⟩ <;> rfl

theorem local_readSeparator (first : Bool) : Local (readSeparator first) := by
  have behind : Local fun s => match skipSpace s with
      | [] => .error (.before .endInValue [])
      | c :: r => if c = 93 then .error (.at .trailingComma (c :: r)) else .ok (true, c :: r) := by
    refine @Local.peekSpace _ (fun c s =>
      if c = 93 then .error (.at .trailingComma s) else .ok (true, s)) _ _ (fun _ => rfl) ?_
    intro c
    split_ifs
    · exact Local.error _
    · exact Local.pure true
  refine @Local.peekSpace _ (fun b s =>
    if b = 93 then .ok (false, s)
    else if first then .ok (true, s)
    else if b = 44 then
      match skipSpace (s.drop 1) with
      | [] => .error (.before .endInValue [])
      | c :: r => if c = 93 then .error (.at .trailingComma (c :: r)) else .ok (true, c :: r)
    else .error (.at .expectedListCommaOrEnd s)) _ _ (fun _ => rfl) ?_
  intro b
  split_ifs
  · exact Local.pure false
  · exact Local.pure true
  · exact behind.drop
  · exact Local.error _

/-- A further element, if there is one. -/
def readFurther (index : Nat) (read : Reader α) (further : Bool) : Reader (Option α) := fun s =>
  if further then
    match read s with
    | .ok (value, rest) => .ok (some value, rest)
    | .error f => .error (f.within (.element index))
  else .ok (none, s)

theorem local_readFurther {read : Reader α} (index : Nat) (h : Local read) (further : Bool) :
    Local (readFurther index read further) := by
  unfold readFurther
  split_ifs
  · refine h.chain (·.within (.element index)) ?_ fun value => Local.pure (some value)
    intro s
    rcases read s with f | ⟨value, rest⟩ <;> rfl
  · exact Local.pure none

theorem local_readElement {read : Reader α} (index : Nat) (h : Local read) :
    Local (readElement index read) := by
  refine (local_readSeparator (index = 0)).chain id ?_ (local_readFurther index h)
  intro s
  dsimp only [readElement]
  rcases readSeparator (index = 0) s with f | ⟨_ | _, rest⟩ <;> rfl

theorem skips_readListEnd : Skips readListEnd := by
  refine Skips.afterSpace _ (fun _ => rfl) ?_
  intro b
  split_ifs
  · exact Skips.pure
  · rintro s _ rest h
    dsimp only at h
    split at h <;> cases h
  · exact Skips.error _

/-- The end of a record that is written as a list, behind its second element. -/
def recordListEnd (type : String) (b : Member β) (x : α) (y : Option β) : Reader (α × β) :=
  fun rest =>
    match y <|> b.absent with
    | none => .error (.before (.mismatch (.invalidLength 1 type)) (rest.drop 1))
    | some y => (readListEnd rest).map ((x, y), ·)

/-- The rest of a record that is written as a list, behind its first element. -/
def recordListRest (type : String) (a : Member α) (b : Member β) (x : Option α) :
    Reader (α × β) := fun rest =>
  match x <|> a.absent with
  | none => .error (.before (.mismatch (.invalidLength 0 type)) (rest.drop 1))
  | some x' =>
    match readElement (if x.isSome then 1 else 0) b.read rest with
    | .error f => .error f
    | .ok (y, rest) => recordListEnd type b x' y rest

theorem local_recordListEnd (type : String) (b : Member β) (x : α) (y : Option β) :
    Local (recordListEnd type b x y) := by
  unfold recordListEnd
  rcases y <|> b.absent with _ | y'
  · exact Local.error _
  · exact skips_readListEnd.giving (x, y')

theorem local_recordListRest {b : Member β} (type : String) (a : Member α) (hb : Local b.read)
    (x : Option α) : Local (recordListRest type a b x) := by
  unfold recordListRest
  rcases x <|> a.absent with _ | x'
  · exact Local.error _
  · refine (local_readElement (if x.isSome then 1 else 0) hb).chain id ?_
      (local_recordListEnd type b x')
    intro s
    dsimp only
    rcases readElement (if x.isSome then 1 else 0) b.read s with f | ⟨y, rest⟩ <;> rfl

theorem local_recordList {a : Member α} {b : Member β} (type : String) (ha : Local a.read)
    (hb : Local b.read) : Local (recordList type a b) := by
  refine (local_readElement 0 ha).chain id ?_ (local_recordListRest type a hb)
  intro s
  dsimp only [recordList]
  rcases readElement 0 a.read s with f | ⟨x, rest⟩ <;> rfl

theorem local_readRecord {a : Member α} {b : Member β} (type : String) (ha : Local a.read)
    (hb : Local b.read) : Local (readRecord type a b) := by
  refine Local.afterSpace _ (fun _ => rfl) ?_
  intro c
  split_ifs
  · exact local_recordList type ha hb
  · exact local_recordObject ha hb
  · exact Local.error _

/-! ### Maps -/

/-- What a member of an object of any names adds to what has been read. -/
def mapNext (read : Reader α) (add : σ → String → α → σ) (acc : σ) (name : List Char) :
    Reader σ := fun s =>
  (readMember name read s).map fun (value, rest) => (add acc (String.ofList name) value, rest)

theorem foldMembers_eq (read : Reader α) (add : σ → String → α → σ) (bound : Input) (first : Bool)
    (acc : σ) (s : Input) : foldMembers read add bound first acc s =
      (steps (memberStep (mapNext read add)) (.before .endInObject) bound (first, acc) s).map
        fun (acc, rest) => (acc, settle rest) := by
  induction bound generalizing first acc s with
  | nil => rfl
  | cons _ bound ih =>
    dsimp only [foldMembers, steps, memberStep, memberBehind, mapNext]
    rcases readMemberName first s with f | ⟨_ | name, rest⟩
    · rfl
    · rfl
    · dsimp only
      rcases readMember name read rest with f | ⟨value, rest⟩
      · rfl
      · exact ih _ _ rest

theorem local_mapNext {read : Reader α} (h : Local read) (add : σ → String → α → σ) (acc : σ)
    (name : List Char) : Local (mapNext read add acc name) :=
  (local_readMember name h).map (add acc (String.ofList name))

theorem closed_readMap {read : Reader α} (h : Local read) (add : σ → String → α → σ) (start : σ) :
    Closed (readMap read add start) := by
  have members := closed_members (local_mapNext h add) (.before .endInObject) start
  simp only [← foldMembers_eq] at members
  refine Closed.afterSpace _ (fun _ => rfl) ?_
  intro c
  split_ifs
  · exact members
  · exact Closed.error _

/-! ### The front of a text, and the whole of it -/

section Whole

variable {read : Reader α} {value : α} {f : Failure}

theorem readFront_eq_ok : readFront read s = .ok value ↔ ∃ rest, read s = .ok (value, rest) := by
  constructor
  · intro h
    obtain ⟨⟨_, rest⟩, found, rfl⟩ := map_eq_ok.1 h
    exact ⟨rest, found⟩
  · rintro ⟨rest, found⟩
    exact map_eq_ok.2 ⟨_, found, rfl⟩

theorem readWhole_eq_ok :
    readWhole read s = .ok value ↔ ∃ rest, read s = .ok (value, rest) ∧ skipSpace rest = [] := by
  unfold readWhole
  rcases read s with f | ⟨value', rest⟩
  · simp
  · dsimp only
    constructor
    · intro h
      split at h
      · next behind =>
        cases h
        exact ⟨rest, rfl, behind⟩
      · cases h
    · rintro ⟨_, ⟨⟩, behind⟩
      rw [behind]

/-- A fault in a text that nothing may follow is one of the value, or something follows the
value. -/
theorem readWhole_eq_error (h : readWhole read s = .error f) :
    readFront read s = .error f ∨ ∃ value, readFront read s = .ok value := by
  unfold readWhole at h
  unfold readFront
  rcases found : read s with f' | ⟨value, rest⟩
  · rw [found] at h
    cases h
    exact .inl rfl
  · exact .inr ⟨value, rfl⟩

/-- A reader that does not look behind its value finds at the front of a text what some part there
is as a whole. -/
theorem Closed.readFront_iff (h : Closed read) : readFront read s = .ok value ↔
    ∃ front rest, s = front ++ rest ∧ readWhole read front = .ok value := by
  rw [readFront_eq_ok]
  constructor
  · rintro ⟨rest, found⟩
    obtain ⟨used, rfl, takes⟩ := h s value rest found
    refine ⟨used, rest, rfl, readWhole_eq_ok.2 ⟨[], ?_, rfl⟩⟩
    simpa using takes []
  · rintro ⟨front, rest, rfl, whole⟩
    obtain ⟨space, found, -⟩ := readWhole_eq_ok.1 whole
    obtain ⟨used, rfl, takes⟩ := h front value space found
    exact ⟨space ++ rest, by rw [List.append_assoc]; exact takes _⟩

end Whole

end BuildPanel.Json
