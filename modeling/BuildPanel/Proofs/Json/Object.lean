import BuildPanel.Proofs.Json.Members

/-!
What stands in an object of any names: its members, parted by commas, each of them a name, a colon
and a value, with white space between all of these. An object is read if and only if it stands at
the front of the text, and its members are then taken in the order in which they stand, those of a
repeated name included.
-/

namespace BuildPanel.Json

variable {α σ : Type} {read : Reader α} {s t rest : Input}

/-- White space, and a token behind it. -/
def Token (b : UInt8) (s rest : Input) : Prop :=
  ∃ blank, (∀ c ∈ blank, isSpace c = true) ∧ s = blank ++ b :: rest

/-- A member at the front of a text: a name in quotes, a colon and a value. -/
def Front (read : Reader α) (m : String × α) (s rest : Input) : Prop :=
  ∃ t u, readText s = .ok (m.1, t) ∧ Token 58 t u ∧ read u = .ok (m.2, rest)

/-- The members of an object that follow a comma each, up to the brace. -/
inductive Further (read : Reader α) : List (String × α) → Input → Input → Prop where
  | close {s rest : Input} (brace : Token 125 s rest) : Further read [] s rest
  | comma {m : String × α} {members : List (String × α)} {s t u rest : Input}
    (comma : Token 44 s t) (first : Front read m t u) (others : Further read members u rest) :
    Further read (m :: members) s rest

/-- An object with its members at the front of a text. -/
inductive Object (read : Reader α) : List (String × α) → Input → Input → Prop where
  | empty {s t rest : Input} (brace : Token 123 s t) (close : Token 125 t rest) :
    Object read [] s rest
  | members {m : String × α} {members : List (String × α)} {s t u rest : Input}
    (brace : Token 123 s t) (first : Front read m t u) (others : Further read members u rest) :
    Object read (m :: members) s rest

/-! ### Tokens and names -/

theorem token_iff {b : UInt8} (solid : isSpace b = false) :
    Token b s rest ↔ skipSpace s = b :: rest := by
  constructor
  · rintro ⟨blank, space, rfl⟩
    unfold skipSpace
    rw [List.dropWhile_append_of_pos space]
    exact List.dropWhile_cons_of_neg (by simp [solid])
  · intro here
    refine ⟨s.takeWhile isSpace, fun c => List.mem_takeWhile_imp, ?_⟩
    rw [← here]
    exact List.takeWhile_append_dropWhile.symm

theorem readColon_eq_ok : readColon s = .ok rest ↔ Token 58 s rest := by
  rw [token_iff (by decide)]
  unfold readColon
  split
  · next r here => simp [here]
  · next here => simp [here]
  · next other _ =>
    constructor
    · nofun
    · intro here
      exact absurd here (other rest)

theorem readText_eq_ok {text : List Char} : readText s = .ok (String.ofList text, rest) ↔
    ∃ r, Token 34 s r ∧ readString r = .ok (text, rest) := by
  simp only [token_iff (show isSpace 34 = false by decide)]
  unfold readText
  rcases skipSpace s with _ | ⟨b, r⟩
  · simp
  · by_cases mark : b = 34
    · subst mark
      simp only [if_true, map_eq_ok, Prod.exists, Prod.mk.injEq, List.cons.injEq, true_and]
      constructor
      · rintro ⟨text', rest', found, same, rfl⟩
        rw [String.ofList_injective same] at found
        exact ⟨r, rfl, found⟩
      · rintro ⟨_, rfl, found⟩
        exact ⟨text, rest, found, rfl, rfl⟩
    · simp [mark]

theorem readMemberName_none {first : Bool} :
    readMemberName first s = .ok (none, t) ↔ ∃ rest, t = 125 :: rest ∧ Token 125 s rest := by
  simp only [readMemberName_eq_ok, token_iff (show isSpace 125 = false by decide)]
  unfold readNameHere
  rcases skipSpace s with _ | ⟨b, r⟩
  · simp
  · by_cases brace : b = 125
    · subst brace
      simp [eq_comm]
    · simp [brace, map_eq_ok]

theorem readMemberName_opened {name : List Char} : readMemberName true s = .ok (some name, rest) ↔
    readText s = .ok (String.ofList name, rest) := by
  rw [readText_eq_ok, readMemberName_eq_ok]
  simp only [token_iff (show isSpace 34 = false by decide)]
  unfold readNameHere readNameBehind
  rcases skipSpace s with _ | ⟨b, r⟩
  · simp
  · by_cases mark : b = 34
    · subst mark
      simp [map_eq_ok]
    · by_cases brace : b = 125 <;> simp [mark, brace, Except.map]

theorem readMemberName_parted {name : List Char} :
    readMemberName false s = .ok (some name, rest) ↔
      ∃ t, Token 44 s t ∧ readText t = .ok (String.ofList name, rest) := by
  simp only [readText_eq_ok, readMemberName_eq_ok, token_iff (show isSpace 34 = false by decide),
    token_iff (show isSpace 44 = false by decide)]
  unfold readNameHere readNameBehind
  rcases skipSpace s with _ | ⟨b, r⟩
  · simp
  · by_cases comma : b = 44
    · subst comma
      rcases here : skipSpace r with _ | ⟨c, r'⟩
      · simp [here, Except.map]
      · by_cases mark : c = 34
        · subst mark
          simp [here, map_eq_ok]
        · by_cases brace : c = 125 <;> simp [here, mark, brace, Except.map]
    · by_cases brace : b = 125 <;> simp [comma, brace, Except.map]

/-! ### Objects -/

section Steps

variable {add : σ → String → α → σ}

theorem mapNext_eq_ok {x x' : σ} {name : List Char} :
    mapNext read add x name s = .ok (x', rest) ↔
      ∃ value t, Token 58 s t ∧ read t = .ok (value, rest) ∧
        x' = add x (String.ofList name) value := by
  have member {value : α} : readMember name read s = .ok (value, rest) ↔
      ∃ t, Token 58 s t ∧ read t = .ok (value, rest) := by
    simp only [← readColon_eq_ok]
    unfold readMember
    rcases readColon s with f | t
    · simp
    · rcases found : read t with f | ⟨value', rest'⟩ <;> simp [found]
  simp only [mapNext, map_eq_ok, Prod.exists, Prod.mk.injEq]
  constructor
  · rintro ⟨value, rest', found, rfl, rfl⟩
    obtain ⟨t, colon, found⟩ := member.1 found
    exact ⟨value, t, colon, found, rfl⟩
  · rintro ⟨value, t, colon, found, rfl⟩
    exact ⟨value, rest, member.2 ⟨t, colon, found⟩, rfl, rfl⟩

/-- A step through an object ends in front of the brace. -/
theorem memberStep_last {first : Bool} {x x' : σ} :
    memberStep (mapNext read add) (first, x) s = .ok (.inr x', t) ↔
      x' = x ∧ ∃ rest, t = 125 :: rest ∧ Token 125 s rest := by
  rw [← @readMemberName_none s t first]
  dsimp only [memberStep]
  rcases readMemberName first s with f | ⟨_ | name, r⟩
  · simp
  · simp [memberBehind, @eq_comm _ x x']
  · simp [memberBehind, map_eq_ok]

/-- A step through an object takes a member: the first one where it stands, a further one behind a
comma. -/
theorem memberStep_more {first first' : Bool} {x x' : σ} :
    memberStep (mapNext read add) (first, x) s = .ok (.inl (first', x'), rest) ↔
      first' = false ∧ ∃ m t, (if first then s = t else Token 44 s t) ∧ Front read m t rest ∧
        x' = add x m.1 m.2 := by
  have member : (∃ name r, readMemberName first s = .ok (some name, r) ∧
      mapNext read add x name r = .ok (x', rest)) ↔
      ∃ m t, (if first then s = t else Token 44 s t) ∧ Front read m t rest ∧
        x' = add x m.1 m.2 := by
    simp only [mapNext_eq_ok]
    constructor
    · rintro ⟨name, r, found, value, u, colon, read, rfl⟩
      cases first with
      | true => exact ⟨(String.ofList name, value), s, rfl,
          ⟨r, u, readMemberName_opened.1 found, colon, read⟩, rfl⟩
      | false =>
        obtain ⟨t, comma, found⟩ := readMemberName_parted.1 found
        exact ⟨(String.ofList name, value), t, comma, ⟨r, u, found, colon, read⟩, rfl⟩
    · rintro ⟨⟨name, value⟩, t, behind, ⟨r, u, found, colon, read⟩, rfl⟩
      obtain ⟨name, rfl⟩ : ∃ text, name = String.ofList text := ⟨name.toList, by simp⟩
      refine ⟨name, r, ?_, value, u, colon, read, rfl⟩
      cases first with
      | true =>
        obtain rfl : s = t := behind
        exact readMemberName_opened.2 found
      | false => exact readMemberName_parted.2 ⟨t, behind, found⟩
  rw [← member]
  dsimp only [memberStep]
  rcases readMemberName first s with f | ⟨_ | name, r⟩
  · simp
  · simp [memberBehind]
  · simp only [memberBehind, map_eq_ok, Prod.exists, Prod.mk.injEq, Sum.inl.injEq]
    constructor
    · rintro ⟨y, r', found, ⟨rfl, rfl⟩, rfl⟩
      exact ⟨rfl, name, r, rfl, found⟩
    · rintro ⟨rfl, _, _, same, found⟩
      cases same
      exact ⟨x', rest, found, ⟨rfl, rfl⟩, rfl⟩

/-- The members behind the first one are taken one after another, up to the brace. -/
theorem finishes_further_iff {x x' : σ} :
    Finishes (memberStep (mapNext read add)) (false, x) s x' (125 :: rest) ↔
      ∃ members, Further read members s rest ∧
        x' = members.foldl (fun acc m => add acc m.1 m.2) x := by
  constructor
  · intro finishes
    generalize start : (false, x) = state at finishes
    generalize brace : (125 :: rest : Input) = stop at finishes
    induction finishes generalizing x with
    | last taken =>
      subst start brace
      obtain ⟨rfl, _, same, close⟩ := memberStep_last.1 taken
      cases same
      exact ⟨[], .close close, rfl⟩
    | @after _ state' _ _ _ _ taken _ ih =>
      subst start
      obtain ⟨first', x'⟩ := state'
      obtain ⟨rfl, m, t, comma, first, rfl⟩ := memberStep_more.1 taken
      obtain ⟨members, others, rfl⟩ := ih rfl brace
      exact ⟨m :: members, .comma comma first others, rfl⟩
  · rintro ⟨members, further, rfl⟩
    induction further generalizing x with
    | close brace => exact .last (memberStep_last.2 ⟨rfl, _, rfl, brace⟩)
    | comma comma first _ ih =>
      exact .after (memberStep_more.2 ⟨rfl, _, _, comma, first, rfl⟩) ih

end Steps

/-- What is behind the brace that opens an object: its end, or a first member and what follows
it. -/
theorem foldMembers_eq_ok (near : Local read) {add : σ → String → α → σ} {start x : σ} :
    foldMembers read add (0 :: s) true start s = .ok (x, rest) ↔
      Token 125 s rest ∧ x = start ∨ ∃ m members t, Front read m s t ∧
        Further read members t rest ∧
        x = members.foldl (fun acc m => add acc m.1 m.2) (add start m.1 m.2) := by
  rw [foldMembers_eq, map_eq_ok]
  constructor
  · rintro ⟨⟨x', r⟩, found, same⟩
    obtain ⟨_, rfl⟩ := steps_ends memberStep_ends found
    cases same
    cases finishes_of_steps found with
    | last taken =>
      obtain ⟨rfl, _, same, close⟩ := memberStep_last.1 taken
      cases same
      exact .inl ⟨close, rfl⟩
    | @after _ state _ _ _ _ taken more =>
      obtain ⟨first, x'⟩ := state
      obtain ⟨rfl, m, t, rfl, first, rfl⟩ := memberStep_more.1 taken
      obtain ⟨members, others, rfl⟩ := finishes_further_iff.1 more
      exact .inr ⟨m, members, _, first, others, rfl⟩
  · intro found
    have finishes : Finishes (memberStep (mapNext read add)) (true, start) s x (125 :: rest) := by
      rcases found with ⟨close, rfl⟩ | ⟨m, members, t, first, others, rfl⟩
      · exact .last (memberStep_last.2 ⟨rfl, rest, rfl, close⟩)
      · exact .after (memberStep_more.2 ⟨rfl, m, s, rfl, first, rfl⟩)
          (finishes_further_iff.2 ⟨members, others, rfl⟩)
    have near := local_mapNext near add
    exact ⟨_, Local.steps_of_finishes (local_memberStep near) (memberStep_goes near) _ 0 finishes,
      rfl⟩

/-- An object of any names is read where one stands, and its members are taken in their order. -/
theorem readMap_eq_ok (near : Local read) {add : σ → String → α → σ} {start x : σ} :
    readMap read add start s = .ok (x, rest) ↔ ∃ members, Object read members s rest ∧
      x = members.foldl (fun acc m => add acc m.1 m.2) start := by
  have opened : readMap read add start s = .ok (x, rest) ↔ ∃ t, Token 123 s t ∧
      foldMembers read add (0 :: t) true start t = .ok (x, rest) := by
    simp only [token_iff (show isSpace 123 = false by decide)]
    unfold readMap
    rcases skipSpace s with _ | ⟨b, r⟩
    · simp
    · by_cases brace : b = 123
      · subst brace
        simp
      · simp [brace]
  simp only [opened, foldMembers_eq_ok near]
  constructor
  · rintro ⟨t, brace, ⟨close, rfl⟩ | ⟨m, members, u, first, others, rfl⟩⟩
    · exact ⟨[], .empty brace close, rfl⟩
    · exact ⟨m :: members, .members brace first others, rfl⟩
  · rintro ⟨_, object, rfl⟩
    cases object with
    | empty brace close => exact ⟨_, brace, .inl ⟨close, rfl⟩⟩
    | members brace first others => exact ⟨_, brace, .inr ⟨_, _, _, first, others, rfl⟩⟩

end BuildPanel.Json
