import BuildPanel.Options.Json
import BuildPanel.Proofs.Json.Spelling
import BuildPanel.Proofs.Options.Members

/-!
Option sets in JSON. A set is read back from every way to write it, of which the one that the panel
writes is one; and nothing behind a set is looked at.
-/

namespace BuildPanel

open Json

namespace OptionEntry

/-- The ways to write the record of an option: its two members in either order. -/
def Spells (e : OptionEntry) (s : List Char) : Prop :=
  SpellsObject [("description".toList, SpellsText e.description.toList),
    ("value".toList, SpellsBool e.value)] s ∨
  SpellsObject [("value".toList, SpellsBool e.value),
    ("description".toList, SpellsText e.description.toList)] s

theorem local_readJson : Local readJson := by
  have record := @local_readRecord _ _ ⟨"description", readText, some ""⟩
    ⟨"value", readBool, none⟩ "OptionEntry" local_readText local_readBool
  exact record.map fun members => OptionEntry.mk members.1 members.2

theorem reads_readJson (e : OptionEntry) : Reads readJson e e.Spells := by
  have record := @reads_record _ _ ⟨"description", readText, some ""⟩ ⟨"value", readBool, none⟩
    e.description e.value _ _ "OptionEntry" (by decide) local_readText local_readBool
    (reads_text e.description) (reads_bool e.value)
  intro blank s rest free spelled
  simp only [readJson, record blank s rest free spelled, Except.map]

end OptionEntry

namespace OptionSet

/-- The ways to write an option set: its members in their order. -/
def Spells (options : OptionSet) (s : List Char) : Prop :=
  ∃ front object behind, IsBlank front ∧ IsBlank behind ∧
    SpellsObject (options.toList.map fun m => (m.1.toList, m.2.Spells)) object ∧
    s = front ++ object ++ behind

theorem closed_readJson : Closed readJson :=
  closed_readMap OptionEntry.local_readJson insert empty

/-- A text that is written for a set is read as this set. -/
theorem readWhole_of_spells {options : OptionSet} {s : List Char} (h : options.Spells s) :
    readWhole readJson (Text.encode s) = .ok options := by
  obtain ⟨front, object, behind, free, free', spelled, rfl⟩ := h
  have map := reads_map OptionEntry.local_readJson insert empty OptionEntry.Spells
    (fun m _ => OptionEntry.reads_readJson m.2) front object (Text.encode behind) free spelled
  have same : options.toList.foldl (fun acc m => insert acc m.1 m.2) empty = options :=
    ofList_toList options
  rw [same, ← Text.encode_append] at map
  refine readWhole_eq_ok.2 ⟨Text.encode behind, map, ?_⟩
  have blank := skipSpace_blank free' []
  rw [List.append_nil] at blank
  exact blank

end OptionSet

/-! ### What the panel writes -/

theorem Json.spells_escapeChar (c : Char) : SpellsChar c (escapeChar c) := by
  unfold escapeChar
  split_ifs with mark escape backspace tab newline feed return_ control
  · exact .short (by rw [mark]; decide)
  · exact .short (by rw [escape]; decide)
  · exact .short (by rw [backspace]; decide)
  · exact .short (by rw [tab]; decide)
  · exact .short (by rw [newline]; decide)
  · exact .short (by rw [feed]; decide)
  · exact .short (by rw [return_]; decide)
  · have zero : IsHexDigit 0 '0' := ⟨by omega, .inl rfl⟩
    have digit (n : Nat) : IsHexDigit (n % 16) (hexDigit n) := ⟨by omega, .inl rfl⟩
    refine .unit ⟨0, 0, _, _, _, _, _, _, zero, zero, digit (c.toNat / 16), digit c.toNat, ?_, rfl⟩
    omega
  · exact .plain (Nat.le_of_not_lt control) mark escape

theorem Json.spells_quote (text : List Char) : SpellsText text (quote text) := by
  refine ⟨text.map escapeChar, ?_, by rw [quote, List.flatMap]⟩
  exact List.forall₂_map_right_iff.2 (List.forall₂_same.2 fun c _ => spells_escapeChar c)

theorem Json.spells_writeMember {m : Written} {value : List Char} (h : m.2 value) :
    SpellsMember m (writeMember m.1 value) := by
  refine ⟨[], quote m.1, [], [], value, [], nofun, spells_quote m.1, nofun, nofun, h, nofun, ?_⟩
  simp [writeMember]

theorem Json.spells_writeObject {members : List Written} {parts : List (List Char)}
    (h : List.Forall₂ SpellsMember members parts) : SpellsObject members (writeObject parts) :=
  ⟨[], parts, nofun, h, rfl⟩

theorem Json.spells_writeBool (b : Bool) : SpellsBool b (writeBool b) := by
  cases b <;> rfl

theorem OptionEntry.spells_toJson (e : OptionEntry) : e.Spells e.toJson := by
  refine .inl (spells_writeObject (.cons ?_ (.cons ?_ .nil)))
  · exact @spells_writeMember (_, _) _ (spells_quote e.description.toList)
  · exact @spells_writeMember (_, _) _ (spells_writeBool e.value)

/-- The way in which the panel writes a set is one of the ways to write it. -/
theorem OptionSet.spells_toJson (options : OptionSet) : options.Spells options.toJson := by
  refine ⟨[], options.toJson, [], nofun, nofun, spells_writeObject ?_, by simp⟩
  refine List.forall₂_map_right_iff.2 (List.forall₂_map_left_iff.2 (List.forall₂_same.2 ?_))
  intro m _
  exact @spells_writeMember (_, _) _ m.2.spells_toJson

end BuildPanel
