import BuildPanel.Proofs.Address.Grammar
import BuildPanel.Proofs.Declaration.Enclosing

/-!
Socket addresses as text: an address, a colon and a port. No port has a colon, so the last colon of
a text decides which part of it is the address, and a host and a port that are written one behind
the other are read as they were written.
-/

namespace BuildPanel

namespace Address

open Declaration (IsRun Stops stops_cons)

variable {s t u rest : List Char} {p : UInt16} {id : UInt32} {address : SocketAddress}

/-! ### What stands behind an address -/

/-- Digits are read as a number below a bound if they stand for one, and if nothing but digits of
the number follows. -/
theorem number_of_numeral {n bound : Nat} (numeral : Numeral 10 t n) (stops : Stops (isDigit 10) rest)
    (small : n < bound) : number 10 none true bound (t ++ rest) = some (n, rest) :=
  number_eq_some_iff.2 ⟨t, numeral, stops, rfl, nofun, .inl rfl, small⟩

theorem port_eq_some_iff :
    port s = some (p, []) ↔ ∃ t, s = ':' :: t ∧ Numeral 10 t p.toNat := by
  simp only [port, Option.bind_eq_bind, Option.bind_eq_some_iff, Option.pure_def,
    Option.some.injEq, Prod.mk.injEq, Prod.exists, char_eq_some_iff]
  constructor
  · rintro ⟨_, t, rfl, n, _, found, rfl, rfl⟩
    obtain ⟨t, numeral, -, rfl, -, -, small⟩ := number_eq_some_iff.1 found
    refine ⟨t, by simp, ?_⟩
    rwa [UInt16.toNat_ofNat_of_lt' small]
  · rintro ⟨t, rfl, numeral⟩
    have nothing : Stops (isDigit 10) [] := fun _ first => nomatch first
    have found := number_of_numeral numeral nothing p.toNat_lt
    rw [List.append_nil] at found
    exact ⟨(), t, rfl, p.toNat, [], found, UInt16.ofNat_toNat, rfl⟩

theorem of_scope (h : scope s = (id, rest)) : ∃ u, Scope u id ∧ s = u ++ rest := by
  rw [scope] at h
  split at h
  · next n left found =>
    cases h
    simp only [Option.bind_eq_bind, Option.bind_eq_some_iff, Prod.exists, char_eq_some_iff] at found
    obtain ⟨_, t, rfl, found⟩ := found
    obtain ⟨t, numeral, -, rfl, -, -, small⟩ := number_eq_some_iff.1 found
    refine ⟨'%' :: t, .given ?_, rfl⟩
    rwa [UInt32.toNat_ofNat_of_lt' small]
  · cases h
    exact ⟨[], .none, rfl⟩

theorem stops_bracket (r : List Char) : Stops (isDigit 10) (']' :: r) :=
  stops_cons (by decide) r

theorem Scope.read (h : Scope u id) (r : List Char) : scope (u ++ ']' :: r) = (id, ']' :: r) := by
  cases h with
  | none => rfl
  | given numeral =>
    have found := number_of_numeral numeral (stops_bracket r) id.toNat_lt
    simp [scope, char, found]

/-- An address ends where a scope or a bracket begins. -/
theorem Scope.closed (h : Scope u id) (r : List Char) : Closed (u ++ ']' :: r) := by
  cases h with
  | none => exact ⟨r, .inl rfl⟩
  | given => exact ⟨_, .inr (.inl rfl)⟩

/-! ### Socket addresses -/

theorem socketV4_eq_some_iff : socketV4 s = some (address, []) ↔ ∃ a b c d t,
    address.ip = .v4 a b c d ∧ s = spellV4 a b c d ++ ':' :: t ∧ Numeral 10 t address.port.toNat := by
  simp only [socketV4, Option.bind_eq_bind, Option.bind_eq_some_iff, Option.pure_def,
    Option.some.injEq, Prod.mk.injEq, Prod.exists, bytes_eq_some_iff]
  constructor
  · rintro ⟨a, b, c, d, _, ⟨rfl, -⟩, p, _, found, rfl, rfl⟩
    obtain ⟨t, rfl, numeral⟩ := port_eq_some_iff.1 found
    exact ⟨a, b, c, d, t, rfl, rfl, numeral⟩
  · obtain ⟨ip, p⟩ := address
    rintro ⟨a, b, c, d, t, rfl, rfl, numeral⟩
    exact ⟨a, b, c, d, _, ⟨rfl, stops_cons (by decide) t⟩, p, [],
      port_eq_some_iff.2 ⟨t, rfl, numeral⟩, rfl, rfl⟩

theorem socketV6_eq_some_iff : socketV6 s = some (address, []) ↔ ∃ groups id t u v,
    address.ip = .v6 groups id ∧ SpellsV6 t groups.toList ∧ Scope u id ∧
      s = '[' :: (t ++ (u ++ ']' :: ':' :: v)) ∧ Numeral 10 v address.port.toNat := by
  simp only [socketV6, Option.bind_eq_bind, Option.bind_eq_some_iff, Option.pure_def,
    Option.some.injEq, Prod.mk.injEq, Prod.exists, char_eq_some_iff]
  constructor
  · rintro ⟨_, _, rfl, groups, left, found, _, _, ending, p, _, last, rfl, rfl⟩
    obtain ⟨t, spells, rfl⟩ := spells_of_eightGroups found
    generalize reading : scope left = outcome at *
    obtain ⟨id, left⟩ := outcome
    obtain ⟨u, given, rfl⟩ := of_scope reading
    obtain rfl : left = _ := ending
    obtain ⟨v, rfl, numeral⟩ := port_eq_some_iff.1 last
    exact ⟨groups, id, t, u, v, rfl, spells, given, rfl, numeral⟩
  · obtain ⟨ip, p⟩ := address
    rintro ⟨groups, id, t, u, v, rfl, spells, given, rfl, numeral⟩
    refine ⟨(), _, rfl, groups, _, eightGroups_of_spells spells (given.closed _), (), ':' :: v, ?_,
      p, [], port_eq_some_iff.2 ⟨v, rfl, numeral⟩, ?_, rfl⟩
    · rw [given.read]
    · rw [given.read]

theorem socketV4_bracket (s : List Char) : socketV4 ('[' :: s) = none := by
  rw [socketV4, bytes_eq_none (stops_cons (by decide) s)]
  rfl

/-- No digits of a number have a colon among them. -/
theorem colon_notMem {n : Nat} (numeral : Numeral 10 t n) : ':' ∉ t := by
  intro inside
  have digit := numeral.digits.all _ inside
  revert digit
  decide

end Address

namespace SocketAddress

open Address

variable {host s : String} {port : UInt16} {address : SocketAddress}

/-- The text of a socket address is the text of its address, a colon and the digits of its port. -/
theorem ofString?_eq_some_iff : ofString? s = some address ↔ ∃ h t,
    s.toList = h ++ ':' :: t ∧ SpellsHost h address.ip ∧ Numeral 10 t address.port.toNat := by
  have whole : ofString? s = some address ↔
      (socketV4 s.toList).orElse (fun _ => socketV6 s.toList) = some (address, []) := by
    unfold ofString?
    dsimp only
    split
    · next a found => simp only [found, Option.some.injEq, Prod.mk.injEq, and_true]
    · next other => exact ⟨nofun, fun found => absurd found (other address)⟩
  rw [whole]
  constructor
  · intro read
    cases v4 : socketV4 s.toList with
    | some found =>
      rw [v4] at read
      cases read
      obtain ⟨a, b, c, d, t, ip, text, numeral⟩ := socketV4_eq_some_iff.1 v4
      exact ⟨_, t, text, ip ▸ .v4 a b c d, numeral⟩
    | none =>
      rw [v4] at read
      obtain ⟨groups, id, t, u, v, ip, spells, scope, text, numeral⟩ := socketV6_eq_some_iff.1 read
      refine ⟨'[' :: (t ++ (u ++ [']'])), v, ?_, ip ▸ .v6 spells scope, numeral⟩
      simpa using text
  · obtain ⟨ip, p⟩ := address
    rintro ⟨h, t, text, spells, numeral⟩
    rw [text]
    cases spells with
    | v4 a b c d =>
      rw [socketV4_eq_some_iff.2 ⟨a, b, c, d, t, rfl, rfl, numeral⟩]
      rfl
    | v6 spells scope =>
      rw [List.cons_append, socketV4_bracket]
      exact socketV6_eq_some_iff.2 ⟨_, _, _, _, t, rfl, spells, scope, by simp, numeral⟩

/-- A host and a port that are written one behind the other, with a colon between them, are the text
of an address only if the host is, and then it is that address with that port. -/
theorem ofString?_host_port : ofString? (host ++ ":" ++ toString port.toNat) = some address ↔
    SpellsHost host.toList address.ip ∧ address.port = port := by
  have text : (host ++ ":" ++ toString port.toNat).toList =
      host.toList ++ ':' :: Nat.toDigits 10 port.toNat := by simp
  have numeral := numeral_toDigits port.toNat
  rw [ofString?_eq_some_iff, text]
  constructor
  · rintro ⟨h, t, same, spells, numeral'⟩
    obtain rfl := Declaration.behind_last_inj same (colon_notMem numeral) (colon_notMem numeral')
    obtain rfl := List.append_cancel_right same
    exact ⟨spells, UInt16.toNat_inj.1 (numeral'.value.symm.trans numeral.value)⟩
  · rintro ⟨spells, rfl⟩
    exact ⟨_, _, rfl, spells, numeral⟩

end SocketAddress

end BuildPanel
