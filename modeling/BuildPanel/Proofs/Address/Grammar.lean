import BuildPanel.Proofs.Address.Numeral

/-!
How IP addresses are written, and that they are read exactly as they are written. An IPv4 address has
one spelling. An IPv6 address has many: digits of both cases, groups with and without leading zeros,
`::` in the place of a run of zeros, an IPv4 address in the place of the last two groups.

Groups are read one after another as long as there are any. What follows an address in a socket
address cannot be taken for a further group, so reading stops where the address ends.
-/

namespace BuildPanel

namespace Address

open Declaration (IsRun Stops stops_cons)

/-! ### Spellings -/

def decimal (b : UInt8) : List Char :=
  Nat.toDigits 10 b.toNat

/-- The spelling of an IPv4 address. -/
def spellV4 (a b c d : UInt8) : List Char :=
  decimal a ++ '.' :: (decimal b ++ '.' :: (decimal c ++ '.' :: decimal d))

/-- A group is written with one to four hexadecimal digits. -/
structure Group (t : List Char) (g : UInt16) : Prop where
  numeral : Numeral 16 t g.toNat
  short : t.length ≤ 4

/-- Groups have colons between them. The last two may be written as an IPv4 address. -/
inductive Groups : (embedded : Bool) → List Char → List UInt16 → Prop where
  | last {t : List Char} {g : UInt16} (group : Group t g) : Groups false t [g]
  | embedded (a b c d : UInt8) : Groups true (spellV4 a b c d) [pair a b, pair c d]
  | more {embedded : Bool} {t rest : List Char} {g : UInt16} {gs : List UInt16} (group : Group t g)
      (further : Groups embedded rest gs) : Groups embedded (t ++ ':' :: rest) (g :: gs)

/-- Groups, or none at all. -/
inductive Part (embedded : Bool) : List Char → List UInt16 → Prop where
  | none : Part embedded [] []
  | some {t : List Char} {gs : List UInt16} (groups : Groups embedded t gs) : Part embedded t gs

/-- An IPv6 address is written with all of its groups, or with two colons in the place of one or more
groups of zeros. -/
inductive SpellsV6 : List Char → List UInt16 → Prop where
  | full {embedded : Bool} {t : List Char} {gs : List UInt16} (groups : Groups embedded t gs)
      (eight : gs.length = 8) : SpellsV6 t gs
  | shortened {embedded : Bool} {s t : List Char} {front back : List UInt16}
      (before : Part false s front) (behind : Part embedded t back)
      (room : front.length + back.length < 8) :
      SpellsV6 (s ++ ':' :: ':' :: t)
        (front ++ List.replicate (8 - front.length - back.length) 0 ++ back)

/-- The text of an IP address. -/
inductive SpellsIp : List Char → IpAddress → Prop where
  | v4 (a b c d : UInt8) : SpellsIp (spellV4 a b c d) (.v4 a b c d)
  | v6 {t : List Char} {groups : Vector UInt16 8} (spells : SpellsV6 t groups.toList) :
      SpellsIp t (.v6 groups 0)

/-- The scope of an address, which may be left out. -/
inductive Scope : List Char → UInt32 → Prop where
  | none : Scope [] 0
  | given {t : List Char} {id : UInt32} (numeral : Numeral 10 t id.toNat) : Scope ('%' :: t) id

/-- The text of an IP address in a socket address: an IPv6 address stands in brackets, and may have a
scope. -/
inductive SpellsHost : List Char → IpAddress → Prop where
  | v4 (a b c d : UInt8) : SpellsHost (spellV4 a b c d) (.v4 a b c d)
  | v6 {t u : List Char} {groups : Vector UInt16 8} {id : UInt32}
      (spells : SpellsV6 t groups.toList) (scope : Scope u id) :
      SpellsHost ('[' :: (t ++ (u ++ [']']))) (.v6 groups id)

/-! ### Bytes -/

variable {s t rest : List Char}

theorem char_eq_some_iff {c : Char} {x : Unit} :
    char c s = some (x, rest) ↔ s = c :: rest := by
  cases s with
  | nil => simp [char]
  | cons d s =>
    by_cases same : d = c
    · simp [char, same]
    · simp [char, same]

theorem decimal_facts : ∀ n < 256, (Nat.toDigits 10 n).length ≤ 3 ∧
    ((Nat.toDigits 10 n).head? = some '0' → (Nat.toDigits 10 n).length = 1) := by
  decide +kernel

theorem byte_eq_some_iff {b : UInt8} :
    byte s = some (b, rest) ↔ s = decimal b ++ rest ∧ Stops (isDigit 10) rest := by
  simp only [byte, Option.bind_eq_bind, Option.bind_eq_some_iff, Option.pure_def,
    Option.some.injEq, Prod.mk.injEq, Prod.exists, number_eq_some_iff]
  constructor
  · rintro ⟨n, _, ⟨t, numeral, stops, rfl, -, noZero, small⟩, rfl, rfl⟩
    have spelled := eq_toDigits_of_noLeadingZero numeral (noZero.resolve_left nofun)
    refine ⟨?_, stops⟩
    rw [decimal, UInt8.toNat_ofNat_of_lt' small, ← spelled]
  · rintro ⟨rfl, stops⟩
    obtain ⟨short, noZero⟩ := decimal_facts b.toNat b.toNat_lt
    refine ⟨b.toNat, rest, ⟨decimal b, numeral_toDigits b.toNat, stops, rfl, ?_, .inr noZero,
      b.toNat_lt⟩, UInt8.ofNat_toNat, rfl⟩
    rintro _ ⟨⟩
    exact short

theorem stops_dot (r : List Char) : Stops (isDigit 10) ('.' :: r) :=
  stops_cons (by decide) r

theorem bytes_eq_some_iff {a b c d : UInt8} : bytes s = some ((a, b, c, d), rest) ↔
    s = spellV4 a b c d ++ rest ∧ Stops (isDigit 10) rest := by
  simp only [bytes, Option.bind_eq_bind, Option.bind_eq_some_iff, Option.pure_def,
    Option.some.injEq, Prod.mk.injEq, Prod.exists, byte_eq_some_iff, char_eq_some_iff]
  constructor
  · rintro ⟨a, _, ⟨rfl, -⟩, -, _, rfl, b, _, ⟨rfl, -⟩, -, _, rfl, c, _, ⟨rfl, -⟩, -, _, rfl, d, _,
      ⟨rfl, stops⟩, ⟨rfl, rfl, rfl, rfl⟩, rfl⟩
    exact ⟨by simp [spellV4], stops⟩
  · rintro ⟨rfl, stops⟩
    have whole : spellV4 a b c d ++ rest = decimal a ++ '.' :: (decimal b ++ '.' :: (decimal c ++
        '.' :: (decimal d ++ rest))) := by simp [spellV4]
    rw [whole]
    exact ⟨a, _, ⟨rfl, stops_dot _⟩, (), _, rfl, b, _, ⟨rfl, stops_dot _⟩, (), _, rfl,
      c, _, ⟨rfl, stops_dot _⟩, (), _, rfl, d, _, ⟨rfl, stops⟩, ⟨rfl, rfl, rfl, rfl⟩, rfl⟩

/-! ### Groups -/

variable {t : List Char} {g : UInt16} {gs : List UInt16} {first embedded : Bool} {room : Nat}
  {v : Vector UInt16 8}

theorem group_eq_some_iff :
    group s = some (g, rest) ↔ ∃ t, Group t g ∧ Stops (isDigit 16) rest ∧ s = t ++ rest := by
  simp only [group, Option.bind_eq_bind, Option.bind_eq_some_iff, Option.pure_def,
    Option.some.injEq, Prod.mk.injEq, Prod.exists, number_eq_some_iff]
  constructor
  · rintro ⟨n, _, ⟨t, numeral, stops, rfl, short, -, small⟩, rfl, rfl⟩
    refine ⟨t, ⟨?_, short 4 rfl⟩, stops, rfl⟩
    rwa [UInt16.toNat_ofNat_of_lt' small]
  · rintro ⟨t, ⟨numeral, short⟩, stops, rfl⟩
    refine ⟨g.toNat, rest, ⟨t, numeral, stops, rfl, ?_, .inl trivial, g.toNat_lt⟩,
      UInt16.ofNat_toNat, rfl⟩
    rintro _ ⟨⟩
    exact short

/-- A decimal digit is a hexadecimal one. -/
theorem isDigit_sixteen {c : Char} (digit : isDigit 10 c = true) : isDigit 16 c = true := by
  rw [isDigit_ten] at digit
  rw [isDigit, digit?_of_isDigit (by omega) digit]
  rfl

/-- What ends hexadecimal digits ends decimal ones. -/
theorem stops_ten (stops : Stops (isDigit 16) rest) : Stops (isDigit 10) rest := by
  intro c first
  refine Bool.eq_false_iff.2 fun digit => ?_
  have other := stops c first
  rw [isDigit_sixteen digit] at other
  cases other

theorem isRun_decimal (b : UInt8) : IsRun (isDigit 16) (decimal b) := by
  have digits := (numeral_toDigits b.toNat).digits
  exact ⟨digits.ne_nil, fun c inside => isDigit_sixteen (digits.all c inside)⟩

/-- An IPv4 address does not begin with a group behind which no dot stands. -/
theorem bytes_eq_none_of_group (group : Group t g) (stops : Stops (isDigit 16) rest)
    (noDot : rest.head? ≠ some '.') : bytes (t ++ rest) = none := by
  refine Option.eq_none_iff_forall_ne_some.2 fun ⟨⟨a, b, c, d⟩, r⟩ found => noDot ?_
  obtain ⟨same, -⟩ := bytes_eq_some_iff.1 found
  rw [spellV4, List.append_assoc, List.cons_append] at same
  have dot (r : List Char) : Stops (isDigit 16) ('.' :: r) := stops_cons (by decide) r
  obtain ⟨-, rfl⟩ := group.numeral.digits.append_inj (isRun_decimal a) stops (dot _) same
  rfl

theorem bytes_eq_none (stops : Stops (isDigit 16) s) : bytes s = none := by
  refine Option.eq_none_iff_forall_ne_some.2 fun ⟨⟨a, b, c, d⟩, r⟩ found => ?_
  obtain ⟨rfl, -⟩ := bytes_eq_some_iff.1 found
  rw [spellV4, List.append_assoc] at stops
  exact not_stops_append (isRun_decimal a) _ stops

theorem group_eq_none (stops : Stops (isDigit 16) s) : group s = none := by
  refine Option.eq_none_iff_forall_ne_some.2 fun ⟨g, r⟩ found => ?_
  obtain ⟨t, group, -, rfl⟩ := group_eq_some_iff.1 found
  exact not_stops_append group.numeral.digits _ stops

/-- What stands in front of groups: a colon, except at the start. -/
def lead (first : Bool) : List Char :=
  if first then [] else [':']

theorem afterColon_eq_some_iff {α : Type} {read : Reader α} {x : α} :
    afterColon first read s = some (x, rest) ↔
      ∃ r, s = lead first ++ r ∧ read r = some (x, rest) := by
  cases first with
  | true => simp [afterColon, lead]
  | false =>
    simp only [afterColon, lead, Bool.false_eq_true, if_false, Option.bind_eq_bind,
      Option.bind_eq_some_iff, Prod.exists, char_eq_some_iff]
    constructor
    · rintro ⟨-, r, rfl, found⟩
      exact ⟨r, rfl, found⟩
    · rintro ⟨r, rfl, found⟩
      exact ⟨(), r, rfl, found⟩

theorem afterColon_lead {α : Type} (first : Bool) (read : Reader α) (s : List Char) :
    afterColon first read (lead first ++ s) = read s := by
  cases first with
  | true => rfl
  | false => simp [afterColon, lead, char]

/-- What has been read are groups, and they stand in front of what is left. -/
theorem of_groups (h : groups first room s = (gs, embedded, rest)) : gs.length ≤ room ∧
    (gs = [] ∧ embedded = false ∧ rest = s ∨
      ∃ t, Groups embedded t gs ∧ s = lead first ++ (t ++ rest)) := by
  induction room generalizing first s gs embedded rest with
  | zero =>
    cases h
    exact ⟨Nat.le_refl 0, .inl ⟨rfl, rfl, rfl⟩⟩
  | succ room ih =>
    rw [groups] at h
    split at h
    · next a b c d left found =>
      cases h
      by_cases last : room = 0
      · rw [if_pos last] at found
        cases found
      rw [if_neg last] at found
      obtain ⟨r, rfl, read⟩ := afterColon_eq_some_iff.1 found
      obtain ⟨rfl, -⟩ := bytes_eq_some_iff.1 read
      refine ⟨?_, .inr ⟨_, .embedded a b c d, rfl⟩⟩
      rw [List.length_cons, List.length_singleton]
      omega
    · split at h
      · cases h
        exact ⟨Nat.zero_le _, .inl ⟨rfl, rfl, rfl⟩⟩
      · next g left found =>
        obtain ⟨r, rfl, read⟩ := afterColon_eq_some_iff.1 found
        obtain ⟨t, group, -, rfl⟩ := group_eq_some_iff.1 read
        generalize onward : groups false room left = outcome at h
        obtain ⟨later, embedded', rest'⟩ := outcome
        cases h
        obtain ⟨fits, ⟨rfl, rfl, rfl⟩ | ⟨u, further, rfl⟩⟩ := ih onward
        · exact ⟨by simp, .inr ⟨t, .last group, rfl⟩⟩
        · refine ⟨Nat.succ_le_succ fits, .inr ⟨_, .more group further, ?_⟩⟩
          simp [lead]

/-- What ends an address: a bracket, a scope, or the two colons that stand for groups of zeros. -/
def Closed (rest : List Char) : Prop :=
  ∃ r, rest = ']' :: r ∨ rest = '%' :: r ∨ rest = ':' :: ':' :: r

theorem Closed.stops (h : Closed rest) : Stops (isDigit 16) rest := by
  obtain ⟨r, rfl | rfl | rfl⟩ := h <;> exact stops_cons (by decide) _

theorem Closed.noDot (h : Closed rest) : rest.head? ≠ some '.' := by
  obtain ⟨r, rfl | rfl | rfl⟩ := h <;> simp

/-- No group is read where an address ends. -/
theorem Closed.afterColon_eq_none (h : Closed rest) (first : Bool) :
    afterColon first bytes rest = none ∧ afterColon first group rest = none := by
  cases first with
  | true => exact ⟨bytes_eq_none h.stops, group_eq_none h.stops⟩
  | false =>
    obtain ⟨r, rfl | rfl | rfl⟩ := h
    · exact ⟨rfl, rfl⟩
    · exact ⟨rfl, rfl⟩
    · have colon : Stops (isDigit 16) (':' :: r) := stops_cons (by decide) r
      exact ⟨(afterColon_lead false bytes _).trans (bytes_eq_none colon),
        (afterColon_lead false group _).trans (group_eq_none colon)⟩

theorem Closed.groups (h : Closed rest) (first : Bool) (room : Nat) :
    groups first room rest = ([], false, rest) := by
  cases room with
  | zero => rfl
  | succ room =>
    obtain ⟨noBytes, noGroup⟩ := h.afterColon_eq_none first
    rw [Address.groups, noBytes, noGroup, ite_self]

/-- Where a group stands with nothing behind it that it could be part of, it is read. -/
theorem groups_of_group (group : Group t g) (stops : Stops (isDigit 16) rest)
    (noDot : rest.head? ≠ some '.') :
    groups first (room + 1) (lead first ++ (t ++ rest)) =
      ((g :: (groups false room rest).1), (groups false room rest).2) := by
  have noBytes := bytes_eq_none_of_group group stops noDot
  have found : Address.group (t ++ rest) = some (g, rest) :=
    group_eq_some_iff.2 ⟨t, group, stops, rfl⟩
  rw [groups, afterColon_lead, afterColon_lead, noBytes, found, ite_self]

/-- All groups of an address are read, if there is room for them. -/
theorem Groups.read (h : Groups embedded t gs) (fits : gs.length ≤ room) (closed : Closed rest) :
    groups first room (lead first ++ (t ++ rest)) = (gs, embedded, rest) := by
  induction h generalizing first room with
  | last group =>
    obtain ⟨room, rfl⟩ := Nat.exists_eq_add_one_of_ne_zero (Nat.ne_of_gt fits)
    rw [groups_of_group group closed.stops closed.noDot, closed.groups]
  | embedded a b c d =>
    obtain ⟨room, rfl⟩ := Nat.exists_eq_add_of_le' fits
    have found : bytes (spellV4 a b c d ++ rest) = some ((a, b, c, d), rest) :=
      bytes_eq_some_iff.2 ⟨rfl, stops_ten closed.stops⟩
    have more : room + 1 ≠ 0 := by omega
    change groups first ((room + 1) + 1) _ = _
    rw [groups, afterColon_lead, found, if_neg more]
  | more group further ih =>
    obtain ⟨room, rfl⟩ := Nat.exists_eq_add_one_of_ne_zero (Nat.ne_of_gt (Nat.zero_lt_of_lt fits))
    have onward := @ih false room (Nat.le_of_succ_le_succ fits)
    simp only [lead, Bool.false_eq_true, if_false, List.cons_append, List.nil_append] at onward
    rw [List.append_assoc, List.cons_append, groups_of_group group (stops_cons (by decide) _)
      (by simp), onward]

theorem part_of_groups (h : groups true room s = (gs, embedded, rest)) :
    gs.length ≤ room ∧ ∃ t, Part embedded t gs ∧ s = t ++ rest := by
  obtain ⟨fits, ⟨rfl, rfl, rfl⟩ | ⟨t, groups, rfl⟩⟩ := of_groups h
  · exact ⟨fits, [], .none, rfl⟩
  · exact ⟨fits, t, .some groups, rfl⟩

theorem Part.read (h : Part embedded t gs) (fits : gs.length ≤ room) (closed : Closed rest) :
    ∃ e, groups true room (t ++ rest) = (gs, e, rest) ∧ (embedded = false → e = false) := by
  cases h with
  | none => exact ⟨false, closed.groups true room, fun _ => rfl⟩
  | some groups => exact ⟨embedded, groups.read fits closed, id⟩

/-- What is read as an IPv6 address is the text of that address. -/
theorem spells_of_eightGroups (h : eightGroups s = some (v, rest)) :
    ∃ t, SpellsV6 t v.toList ∧ s = t ++ rest := by
  rw [eightGroups] at h
  generalize beginning : groups true 8 s = outcome at h
  obtain ⟨front, embedded, left⟩ := outcome
  obtain ⟨fits, u, before, rfl⟩ := part_of_groups beginning
  dsimp only at h
  split at h
  · next eight =>
    cases h
    cases before with
    | none => cases eight
    | some groups => exact ⟨u, .full groups eight, rfl⟩
  · next fewer =>
    split at h
    · cases h
    · next apart =>
      rw [Bool.not_eq_true] at apart
      subst apart
      simp only [Option.bind_eq_bind, Option.bind_eq_some_iff, Prod.exists, char_eq_some_iff] at h
      obtain ⟨_, _, rfl, _, behind, rfl, found⟩ := h
      generalize ending : groups true (7 - front.length) behind = outcome at found
      obtain ⟨back, embedded', left⟩ := outcome
      obtain ⟨room, w, after, rfl⟩ := part_of_groups ending
      dsimp only at found
      split at found
      · cases found
        refine ⟨u ++ ':' :: ':' :: w, .shortened before after ?_, by simp⟩
        omega
      · cases found

theorem eightGroups_of_spells (h : SpellsV6 t v.toList) (closed : Closed rest) :
    eightGroups (t ++ rest) = some (v, rest) := by
  generalize same : v.toList = gs at h
  have array : gs.toArray = v.toArray := by rw [← same, Vector.toList, Array.toArray_toList]
  cases h with
  | full groups eight =>
    have read : Address.groups true 8 (t ++ rest) = (gs, _, rest) :=
      groups.read (Nat.le_of_eq eight) closed
    rw [eightGroups, read]
    simp [eight, array]
  | @shortened _ s t front back before behind room =>
    have fewer : front.length ≠ 8 := by omega
    have total : (front ++ List.replicate (8 - front.length - back.length) 0 ++ back).length = 8 := by
      rw [← same, Vector.length_toList]
    have some : front.length ≤ 8 := by omega
    have others : back.length ≤ 7 - front.length := by omega
    have colons : Closed (':' :: ':' :: (t ++ rest)) := ⟨_, .inr (.inr rfl)⟩
    obtain ⟨_, beginning, apart⟩ := before.read some colons
    obtain ⟨_, ending, -⟩ := behind.read others closed
    rw [List.append_assoc, List.cons_append, List.cons_append, eightGroups, beginning, apart rfl]
    simp only [fewer, char, ending, Option.bind_eq_bind, Option.bind_some, dif_neg, if_true,
      not_false_eq_true, Bool.false_eq_true, if_false, total, dif_pos, array]
    rfl

end Address

end BuildPanel
