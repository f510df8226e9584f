import BuildPanel.Toml.Document

/-!
Documents that consist of tables with plain names and plain keys. When no name is given twice, and
no key twice in a table, the document is the list of these tables as they were written.
-/

namespace BuildPanel.Toml

namespace Members

variable {key : Key} {members : Members}

theorem find?_eq_none (absent : key ∉ members.map Prod.fst) : members.find? key = none := by
  induction members with
  | nil => rfl
  | cons m rest ih =>
    rw [List.map_cons, List.mem_cons, not_or] at absent
    rw [find?, if_neg (Ne.symm absent.1), ih absent.2]

theorem erase_of_absent (absent : key ∉ members.map Prod.fst) : members.erase key = members := by
  induction members with
  | nil => rfl
  | cons m rest ih =>
    rw [List.map_cons, List.mem_cons, not_or] at absent
    rw [erase, if_neg (Ne.symm absent.1), ih absent.2]

theorem put_of_absent (absent : key ∉ members.map Prod.fst) (value : Node) :
    members.put key value = members ++ [(key, value)] := by
  induction members with
  | nil => rfl
  | cons m rest ih =>
    rw [List.map_cons, List.mem_cons, not_or] at absent
    rw [put, if_neg (Ne.symm absent.1), ih absent.2, List.cons_append]

end Members

theorem absent_of_nodup {key : Key} {before after : List Key}
    (nodup : (before ++ key :: after).Nodup) : key ∉ before := by
  rw [List.nodup_append] at nodup
  exact fun present => nodup.2.2 key present key List.mem_cons_self rfl

/-- A name and the pairs below it. -/
abbrev Section := Key × Members

/-- The lines of a section. -/
def Section.statements (s : Section) : List Statement :=
  .header ⟨[], s.1⟩ :: s.2.map fun m => .pair ⟨[], m.1⟩ m.2

/-- The member that a section makes. -/
def Section.member (s : Section) : Key × Node :=
  (s.1, .table .header s.2)

namespace Assembly

theorem add_pairs (closed : Members) (target : Target) (pairs members : Members)
    (nodup : ((members ++ pairs).map Prod.fst).Nodup) :
    (pairs.map fun m => Statement.pair ⟨[], m.1⟩ m.2).foldlM add ⟨closed, target, members⟩ =
      some ⟨closed, target, members ++ pairs⟩ := by
  induction pairs generalizing members with
  | nil => simp
  | cons m pairs ih =>
    have absent : m.1 ∉ members.map Prod.fst := absent_of_nodup (by simpa using nodup)
    have step : add ⟨closed, target, members⟩ (.pair ⟨[], m.1⟩ m.2) =
        some ⟨closed, target, members ++ [m]⟩ := by
      simp [add, insertPair, Members.find?_eq_none absent]
    rw [List.map_cons, List.foldlM_cons, step]
    simpa using ih (members ++ [m]) (by simpa using nodup)

theorem add_header {a : Assembly} {closed : Members} (closes : a.close = some closed) {name : Key}
    (absent : name ∉ closed.map Prod.fst) :
    a.add (.header ⟨[], name⟩) = some ⟨closed, .table ⟨[], name⟩, []⟩ := by
  simp [add, closes, membersAt?, implied?, alterAt, Members.find?_eq_none absent,
    Members.erase_of_absent absent]

theorem close_table {closed : Members} {name : Key} (absent : name ∉ closed.map Prod.fst)
    (members : Members) :
    close ⟨closed, .table ⟨[], name⟩, members⟩ =
      some (closed ++ [(name, .table .header members)]) := by
  simp [close, alterAt, Members.put_of_absent absent]

/-- Sections are added behind the tables that are there. -/
theorem add_sections (sections : List Section) {a : Assembly} {closed : Members}
    (closes : a.close = some closed)
    (names : (closed.map Prod.fst ++ sections.map Prod.fst).Nodup)
    (keys : ∀ s ∈ sections, (s.2.map Prod.fst).Nodup) :
    ∃ b, (sections.flatMap Section.statements).foldlM add a = some b ∧
      b.close = some (closed ++ sections.map Section.member) := by
  induction sections generalizing a closed with
  | nil => exact ⟨a, rfl, by simpa using closes⟩
  | cons s sections ih =>
    have absent : s.1 ∉ closed.map Prod.fst := absent_of_nodup names
    have own : ((([] : Members) ++ s.2).map Prod.fst).Nodup := keys s List.mem_cons_self
    obtain ⟨b, adds, closes'⟩ := ih (close_table absent s.2)
      (by simpa using names) (fun t ht => keys t (List.mem_cons_of_mem s ht))
    refine ⟨b, ?_, by simpa [Section.member] using closes'⟩
    rw [List.flatMap_cons, List.foldlM_append, Section.statements, List.foldlM_cons,
      add_header closes absent]
    simpa [add_pairs closed _ s.2 [] own] using adds

end Assembly

/-- A document of sections is their tables. -/
theorem assemble?_sections (sections : List Section) (names : (sections.map Prod.fst).Nodup)
    (keys : ∀ s ∈ sections, (s.2.map Prod.fst).Nodup) :
    assemble? (sections.flatMap Section.statements) = some (sections.map Section.member) := by
  obtain ⟨b, adds, closes⟩ := Assembly.add_sections sections (a := ⟨[], .root, []⟩) rfl
    (by simpa using names) keys
  simp [assemble?, adds, closes]

end BuildPanel.Toml
