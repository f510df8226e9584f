import BuildPanel.Proofs.Address.Grammar

/-!
The characters that addresses are written with. An IPv4 address has no colon, an IPv6 address has at
least one, and brackets stand around an IPv6 address in a socket address and nowhere else. So the
texts of IP addresses and the texts that they have in socket addresses are apart, but for IPv4
addresses.
-/

namespace BuildPanel

namespace Address

variable {t : List Char} {g : UInt16} {gs : List UInt16} {embedded : Bool} {x : Char}

/-- An IPv4 address is written with digits and dots. -/
theorem notMem_spellV4 (noDigit : isDigit 10 x = false) (noDot : x ≠ '.') (a b c d : UInt8) :
    x ∉ spellV4 a b c d := by
  have digits (n : UInt8) : x ∉ decimal n := by
    intro inside
    have digit := (numeral_toDigits n.toNat).digits.all x inside
    rw [noDigit] at digit
    cases digit
  simp [spellV4, digits, noDot]

theorem Group.notMem (group : Group t g) (noDigit : isDigit 16 x = false) : x ∉ t := by
  intro inside
  have digit := group.numeral.digits.all x inside
  rw [noDigit] at digit
  cases digit

/-- Groups are written with digits, colons and dots. -/
theorem Groups.notMem (h : Groups embedded t gs) (noDigit : isDigit 16 x = false) (noDot : x ≠ '.')
    (noColon : x ≠ ':') : x ∉ t := by
  induction h with
  | last group => exact group.notMem noDigit
  | embedded a b c d =>
    have noDecimal : isDigit 10 x = false := by
      refine Bool.eq_false_iff.2 fun digit => ?_
      rw [isDigit_sixteen digit] at noDigit
      cases noDigit
    exact notMem_spellV4 noDecimal noDot a b c d
  | more group further ih => simp [group.notMem noDigit, noColon, ih]

theorem Groups.bracket_notMem (h : Groups embedded t gs) : '[' ∉ t :=
  h.notMem (by decide) (by decide) (by decide)

theorem Part.bracket_notMem (h : Part embedded t gs) : '[' ∉ t := by
  cases h with
  | none => exact List.not_mem_nil
  | some groups => exact groups.bracket_notMem

theorem SpellsV6.bracket_notMem (h : SpellsV6 t gs) : '[' ∉ t := by
  cases h with
  | full groups => exact groups.bracket_notMem
  | shortened before behind => simp [before.bracket_notMem, behind.bracket_notMem]

/-- No IPv6 address is written without a colon. -/
theorem SpellsV6.colon_mem (h : SpellsV6 t gs) : ':' ∈ t := by
  cases h with
  | full groups eight =>
    cases groups with
    | last => cases eight
    | embedded => cases eight
    | more => simp
  | shortened => simp

variable {ip : IpAddress} {groups : Vector UInt16 8} {scope : UInt32}

theorem SpellsIp.spellsV6 (h : SpellsIp t (.v6 groups scope)) : SpellsV6 t groups.toList := by
  cases h with
  | v6 spells => exact spells

/-- No IP address is written with brackets. -/
theorem SpellsIp.bracket_notMem (h : SpellsIp t ip) : '[' ∉ t := by
  cases h with
  | v4 a b c d => exact notMem_spellV4 (by decide) (by decide) a b c d
  | v6 spells => exact spells.bracket_notMem

theorem SpellsHost.not_spellsIp (h : SpellsHost t (.v6 groups scope)) : ¬ SpellsIp t ip := by
  cases h
  exact fun bare => bare.bracket_notMem List.mem_cons_self

theorem SpellsIp.not_spellsHost (h : SpellsIp t (.v6 groups scope)) : ¬ SpellsHost t ip := by
  intro host
  cases host with
  | v4 a b c d => exact notMem_spellV4 (by decide) (by decide) a b c d h.spellsV6.colon_mem
  | v6 => exact h.bracket_notMem List.mem_cons_self

/-- Without IPv6 addresses, what is written as an IP address is written as a host. -/
theorem spellsIp_iff_spellsHost (bare : ∀ groups, ¬ SpellsIp t (.v6 groups 0))
    (bracketed : ∀ groups scope, ¬ SpellsHost t (.v6 groups scope)) :
    SpellsIp t ip ↔ SpellsHost t ip := by
  constructor
  · intro h
    cases h with
    | v4 a b c d => exact .v4 a b c d
    | v6 spells => exact absurd (.v6 spells) (bare _)
  · intro h
    cases h with
    | v4 a b c d => exact .v4 a b c d
    | v6 spells scope => exact absurd (.v6 spells scope) (bracketed _ _)

end Address

end BuildPanel
