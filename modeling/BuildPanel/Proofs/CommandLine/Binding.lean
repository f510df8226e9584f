import BuildPanel.CommandLine.Configure
import BuildPanel.Proofs.Address.Alphabet
import BuildPanel.Proofs.Address.Socket

/-!
Which hosts a panel can be bound to. The address to listen on is read from the host and the port
with a colon between them, so the host has to be written as in the text of a socket address: an IPv6
address must stand in brackets, where it may have a scope. That is the text of an IP address for
every IPv4 address and for no IPv6 address.
-/

namespace BuildPanel

namespace CommandLine

open Address

variable {env : Environment} {fs : FileSystem} {g : Given} {root : Path}

/-- A panel can be bound to the addresses that a reading of the host accepts, each with the port that
is given, and to nothing else. -/
structure Binds (env : Environment) (fs : FileSystem) (g : Given) (accepts : IpAddress → Prop) :
    Prop where
  taken : ∀ ip, accepts ip → ∃ c, g.configuration env fs = .ok c ∧ c.address = ⟨ip, g.port⟩
  refused : (∀ ip, ¬ accepts ip) → g.configuration env fs = .error (.address g.host g.port)

namespace Given

theorem ofString?_address {address : SocketAddress} :
    SocketAddress.ofString? g.address = some address ↔
      SpellsHost g.host.toList address.ip ∧ address.port = g.port :=
  SocketAddress.ofString?_host_port

theorem ofString?_address_eq_none :
    SocketAddress.ofString? g.address = none ↔ ∀ ip, ¬ SpellsHost g.host.toList ip := by
  rw [Option.eq_none_iff_forall_ne_some]
  exact ⟨fun none ip spells => none ⟨ip, g.port⟩ (ofString?_address.2 ⟨spells, rfl⟩),
    fun no address found => no address.ip (ofString?_address.1 found).1⟩

end Given

theorem binds_spellsHost (found : fs.canonical g.project = .ok root) :
    Binds env fs g (SpellsHost g.host.toList) where
  taken ip spells := by
    have read : SocketAddress.ofString? g.address = some ⟨ip, g.port⟩ :=
      Given.ofString?_address.2 ⟨spells, rfl⟩
    simp [Given.configuration, read, found]
  refused no := by
    rw [Given.configuration, Given.ofString?_address_eq_none.2 no]

/-- A panel is bound to what the host stands for in the text of a socket address. That is what it
stands for as an IP address if and only if it is no IPv6 address, neither as it is nor in brackets. -/
theorem binds_host (found : fs.canonical g.project = .ok root) :
    Binds env fs g (SpellsHost g.host.toList) ∧ (Binds env fs g (SpellsIp g.host.toList) ↔
      (∀ groups, ¬ SpellsIp g.host.toList (.v6 groups 0)) ∧
        ∀ groups scope, ¬ SpellsHost g.host.toList (.v6 groups scope)) := by
  have binds : Binds env fs g (SpellsHost g.host.toList) := binds_spellsHost found
  refine ⟨binds, fun h => ⟨fun groups bare => ?_, fun groups scope bracketed => ?_⟩, fun h => ?_⟩
  · obtain ⟨c, ok, -⟩ := h.taken _ bare
    cases ok.symm.trans (binds.refused fun ip => bare.not_spellsHost)
  · obtain ⟨c, ok, -⟩ := binds.taken _ bracketed
    cases ok.symm.trans (h.refused fun ip => bracketed.not_spellsIp)
  · have same : SpellsIp g.host.toList = SpellsHost g.host.toList :=
      funext fun ip => propext (spellsIp_iff_spellsHost h.1 h.2)
    rwa [same]

/-- The groups of the loopback address. -/
def loopback : Vector UInt16 8 :=
  ⟨#[0, 0, 0, 0, 0, 0, 0, 1], rfl⟩

theorem spellsV6_loopback : SpellsV6 [':', ':', '1'] loopback.toList := by
  have one : Group ['1'] 1 := ⟨by decide, by decide⟩
  have groups : Part false ['1'] [1] := .some (.last one)
  exact .shortened .none groups (by decide)

/-- What is given if there is only a host on the command line. -/
def onlyHost (host : String) : Given :=
  Given.ofValues [(.host, host)]

/-- In brackets and with a scope, the loopback address is bound to. -/
theorem binds_loopback_scoped : SpellsHost "[::1%3]".toList (.v6 loopback 3) ∧
    Binds [] ⟨[], []⟩ (onlyHost "[::1%3]") (SpellsHost "[::1%3]".toList) ∧
      (Binds [] ⟨[], []⟩ (onlyHost "[::1%3]") (SpellsIp "[::1%3]".toList) ↔
        (∀ groups, ¬ SpellsIp "[::1%3]".toList (.v6 groups 0)) ∧
          ∀ groups scope, ¬ SpellsHost "[::1%3]".toList (.v6 groups scope)) := by
  have three : Scope ['%', '3'] 3 := .given (by decide)
  have root : FileSystem.canonical ⟨[], []⟩ (onlyHost "[::1%3]").project = .ok [47] := by
    decide +kernel
  exact ⟨.v6 spellsV6_loopback three, binds_host root⟩

/-- The loopback address as it is written is not bound to. -/
theorem not_binds_loopback :
    FileSystem.canonical ⟨[], []⟩ (onlyHost "::1").project = .ok [47] ∧
      SpellsIp "::1".toList (.v6 loopback 0) ∧
      (onlyHost "::1").configuration [] ⟨[], []⟩ = .error (.address "::1" 5000) ∧
      ¬ Binds [] ⟨[], []⟩ (onlyHost "::1") (SpellsIp "::1".toList) := by
  have spells : SpellsIp "::1".toList (.v6 loopback 0) := .v6 spellsV6_loopback
  have refused : (onlyHost "::1").configuration [] ⟨[], []⟩ = .error (.address "::1" 5000) := by
    decide +kernel
  refine ⟨by decide +kernel, spells, refused, fun binds => ?_⟩
  obtain ⟨c, taken, -⟩ := binds.taken _ spells
  cases refused.symm.trans taken

end CommandLine

end BuildPanel
