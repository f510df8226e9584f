import BuildPanel.Options.Toml
import BuildPanel.Proofs.Options.Members
import BuildPanel.Proofs.Toml.Document
import BuildPanel.Proofs.Toml.Statement

/-!
An option set comes back from its document. Each option is a section of the document whose header
is the option's name; a set lists no name twice, so that the sections are the tables of the
document in their order, and inserting them one after another gives the set again.
-/

namespace BuildPanel

open Toml

namespace OptionEntry

/-- The section of a document that an option makes. -/
def sectionOf (m : String × OptionEntry) : Toml.Section :=
  (m.1.toList, [(descriptionKey, .scalar (.string m.2.description.toList)),
    (valueKey, .scalar (.boolean m.2.value))])

theorem readStatement_description (text rest : List Char) :
    readStatement (descriptionKey ++ ' ' :: '=' :: ' ' :: (writeString text ++ '\n' :: rest)) =
      some (.pair ⟨[], descriptionKey⟩ (.scalar (.string text)), rest) := by
  have front : skipBlanks (writeString text ++ '\n' :: rest) =
      writeString text ++ '\n' :: rest := by
    obtain ⟨c, more, written, rfl | rfl⟩ := writeString_cons text
    · rw [written]
      rfl
    · rw [written]
      rfl
  exact readStatement_pair (List.all_eq_true.1 (by decide)) front (readValue_writeString text rest)

theorem readStatement_value (b : Bool) (rest : List Char) :
    readStatement (valueKey ++ ' ' :: '=' :: ' ' ::
        ((if b then "true".toList else "false".toList) ++ '\n' :: rest)) =
      some (.pair ⟨[], valueKey⟩ (.scalar (.boolean b)), rest) := by
  cases b
  · exact readStatement_pair (List.all_eq_true.1 (by decide)) rfl (readValue_false _)
  · exact readStatement_pair (List.all_eq_true.1 (by decide)) rfl (readValue_true _)

/-- The lines of an option are read in three steps. -/
theorem readStatements_writeToml (m : String × OptionEntry) {bound : List Char}
    (room : 3 ≤ bound.length) (met : List Statement) (rest : List Char) :
    readStatements bound met (m.2.writeToml m.1 ++ rest) =
      readStatements (bound.drop 3) ((sectionOf m).statements.reverse ++ met) rest := by
  match bound, room with
  | b :: b' :: b'' :: bound, _ =>
    have solid : ∀ c : Char, c = '[' ∨ c = 'd' ∨ c = 'v' →
        isBlank c = false ∧ c ≠ '#' ∧ c ≠ '\n' ∧ c ≠ '\r' := by
      rintro c (rfl | rfl | rfl) <;> decide
    have value := readStatement_value m.2.value rest
    have description := readStatement_description m.2.description.toList
      (valueKey ++ ' ' :: '=' :: ' ' ::
        ((if m.2.value then "true".toList else "false".toList) ++ '\n' :: rest))
    have header := readStatement_header m.1.toList (descriptionKey ++ ' ' :: '=' :: ' ' ::
      (writeString m.2.description.toList ++ '\n' :: (valueKey ++ ' ' :: '=' :: ' ' ::
        ((if m.2.value then "true".toList else "false".toList) ++ '\n' :: rest))))
    have lines : m.2.writeToml m.1 ++ rest = '[' :: (writeKey m.1.toList ++ ']' :: '\n' ::
        (descriptionKey ++ ' ' :: '=' :: ' ' ::
          (writeString m.2.description.toList ++ '\n' :: (valueKey ++ ' ' :: '=' :: ' ' ::
            ((if m.2.value then "true".toList else "false".toList) ++ '\n' :: rest))))) := by
      simp [writeToml]
    rw [lines, readStatements_cons (solid _ (.inl rfl)) header]
    exact (readStatements_cons (solid _ (.inr (.inl rfl))) description _ _ _).trans
      (readStatements_cons (solid _ (.inr (.inr rfl))) value _ _ _)

theorem length_writeToml (m : String × OptionEntry) : 4 ≤ (m.2.writeToml m.1).length := by
  have key : descriptionKey.length = 11 := by decide
  simp only [writeToml, List.length_append, List.length_cons, key]
  omega

theorem ofToml_member (m : String × OptionEntry) : ofToml (sectionOf m).member.2 = .ok m.2 := by
  have other : valueKey ≠ descriptionKey := by decide
  simp [ofToml, Section.member, sectionOf, membersOf, descriptionOf, valueOf, other]

end OptionEntry

namespace OptionSet

open OptionEntry

/-- The lines of a document are the sections of its options. -/
theorem readStatements_sections (options : List (String × OptionEntry)) (bound : List Char)
    (met : List Statement) (room : 4 * options.length ≤ bound.length) :
    readStatements bound met (List.intercalate ['\n'] (options.map fun m => m.2.writeToml m.1)) =
      some (met.reverse ++ (options.map sectionOf).flatMap Section.statements) := by
  induction options generalizing bound met with
  | nil => simp [readStatements_nil]
  | cons m options ih =>
    rw [List.length_cons] at room
    have lines := readStatements_writeToml m (by omega : 3 ≤ bound.length) met
    cases options with
    | nil =>
      have last := lines []
      rw [List.append_nil, readStatements_nil] at last
      simpa using last
    | cons m' options =>
      rw [List.map_cons, List.map_cons, List.intercalate_cons_cons, List.append_assoc, lines]
      obtain ⟨b, more, drop⟩ : ∃ b more, bound.drop 3 = b :: more :=
        List.exists_cons_of_length_pos (by rw [List.length_drop, List.length_cons] at *; omega)
      have shorter : bound.length - 3 = more.length + 1 := by
        rw [← List.length_drop, drop, List.length_cons]
      rw [drop, List.singleton_append, readStatements_feed]
      have step := ih more ((sectionOf m).statements.reverse ++ met) (by omega)
      rw [List.map_cons] at step
      simpa using step

theorem length_toToml (options : List (String × OptionEntry)) :
    4 * options.length ≤
      (List.intercalate ['\n'] (options.map fun m => m.2.writeToml m.1)).length := by
  induction options with
  | nil => simp
  | cons m options ih =>
    have enough := length_writeToml m
    cases options with
    | nil => simpa using enough
    | cons m' options =>
      rw [List.map_cons, List.map_cons, List.intercalate_cons_cons] at *
      simp only [List.length_append, List.length_cons] at *
      omega

theorem statements?_toToml (s : OptionSet) :
    statements? s.toToml = some ((s.toList.map sectionOf).flatMap Section.statements) := by
  have unmarked : skipMark s.toToml = s.toToml := by
    unfold toToml
    cases s.toList with
    | nil => rfl
    | cons m options =>
      cases options with
      | nil => rfl
      | cons m' options => rw [List.map_cons, List.map_cons, List.intercalate_cons_cons]; rfl
  rw [statements?, unmarked]
  exact readStatements_sections s.toList s.toToml [] (length_toToml s.toList)

theorem document?_toToml (s : OptionSet) :
    document? s.toToml = some (s.toList.map fun m => (sectionOf m).member) := by
  have names : ((s.toList.map sectionOf).map Prod.fst).Nodup := by
    have same : (s.toList.map sectionOf).map Prod.fst =
        (s.toList.map Prod.fst).map String.toList := by
      rw [List.map_map, List.map_map]
      rfl
    rw [same]
    exact List.pairwise_map.2 (s.nodup.imp fun other eq => other (String.toList_inj.1 eq))
  have keys : ∀ t ∈ s.toList.map sectionOf, (t.2.map Prod.fst).Nodup := by
    intro t ht
    obtain ⟨m, -, rfl⟩ := List.mem_map.1 ht
    have other : descriptionKey ≠ valueKey := by decide
    exact List.nodup_cons.2 ⟨by simpa using other, List.pairwise_singleton _ _⟩
  rw [document?, statements?_toToml, Option.bind_some, assemble?_sections _ names keys,
    List.map_map]
  rfl

/-- What is read in the sections of some options is inserted, one option after another. -/
theorem ofMembers_sections (options : List (String × OptionEntry)) (s : OptionSet) :
    ofMembers s (options.map fun m => (sectionOf m).member) = .ok (s.insertAll options) := by
  induction options generalizing s with
  | nil => rfl
  | cons m options ih =>
    have name : String.ofList (sectionOf m).member.1 = m.1 := String.ofList_toList
    rw [List.map_cons, ofMembers, ofToml_member]
    dsimp only
    rw [name, ih, insertAll_cons]

/-- A set comes back from its document. -/
theorem ofToml_toToml (s : OptionSet) : ofToml s.toToml = .ok s := by
  rw [ofToml, document?_toToml]
  dsimp only
  rw [ofMembers_sections, ← ofList_eq_insertAll, ofList_toList]

end OptionSet

end BuildPanel
