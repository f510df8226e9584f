import Mathlib.Data.List.Forall2
import BuildPanel.Proofs.Declaration.Scanned
import BuildPanel.Proofs.Invocation

/-!
What the declarations of a text come to when the source tree is configured: one definition for each
name that is declared, in the order in which the names come first, whatever a snapshot says. The
names are words; they are plain identifiers as long as no declared name has a character that is not
ASCII.
-/

namespace BuildPanel

namespace Declaration

open Invocation Text

/-- The characters of a plain identifier: ASCII letters and digits, and the underscore. -/
def isPlain (c : Char) : Bool :=
  c.isAlphanum || c = '_'

/-- The plain characters are the ASCII characters of words. -/
theorem isPlain_iff {c : Char} : isPlain c = true ↔ isWord c = true ∧ c.toNat < 128 := by
  have ascii : ∀ n < 128, isPlain (Char.ofNat n) = isWord (Char.ofNat n) := by decide +kernel
  by_cases low : c.toNat < 128
  · have same := ascii c.toNat low
    rw [Char.ofNat_toNat] at same
    rw [same]
    exact (and_iff_left low).symm
  · have ranges : isPlain c = (decide (65 ≤ c.val ∧ c.val ≤ 90) || (97 ≤ c.val && c.val ≤ 122) ||
        (48 ≤ c.val && c.val ≤ 57) || c = '_') := rfl
    refine iff_of_false (fun plain => low ?_) fun both => low both.2
    simp only [ranges, Bool.or_eq_true, Bool.and_eq_true, decide_eq_true_eq,
      UInt32.le_iff_toNat_le] at plain
    rcases plain with h | rfl
    · change (65 ≤ c.toNat ∧ c.toNat ≤ 90 ∨ 97 ≤ c.toNat ∧ c.toNat ≤ 122) ∨
        48 ≤ c.toNat ∧ c.toNat ≤ 57 at h
      omega
    · decide

/-- An argument defines a plain identifier. -/
def PlainlyDefines (argument : List UInt8) : Prop :=
  ∃ name : String, IsRun isPlain name.toList ∧ Defines name argument

variable {found : List Occurrence} {options : OptionSet}

/-- What is passed on for declarations that have been found. -/
structure Passed (found : List Occurrence) (definitions : List (List UInt8)) : Prop where
  /-- One definition for each name, in the order in which the names are found first. -/
  each : List.Forall₂ Defines (found.map fun o => String.ofList o.spelling.name).eraseDups
    definitions
  /-- Every name is a word. -/
  words : ∀ argument ∈ definitions, ∃ name : String,
    IsRun isWord name.toList ∧ Defines name argument
  /-- All names are plain identifiers if and only if all that are declared are ASCII. -/
  plain : (∀ argument ∈ definitions, PlainlyDefines argument) ↔
    ∀ o ∈ found, ∀ c ∈ o.spelling.name, c.toNat < 128

/-- The definitions of a set. -/
def definitions (options : OptionSet) : List (List UInt8) :=
  options.toList.map fun m => define m.1 m.2

theorem defines_definitions (options : OptionSet) :
    List.Forall₂ Defines options.names (definitions options) := by
  rw [OptionSet.names, definitions, List.forall₂_map_left_iff, List.forall₂_map_right_iff,
    List.forall₂_same]
  exact fun m _ => defines_define m.1 m.2

/-- What is defined for the names that have been found. -/
theorem exists_found_of_mem
    (names : options.names = (found.map fun o => String.ofList o.spelling.name).eraseDups)
    {argument : List UInt8} (defines : argument ∈ definitions options) :
    ∃ o ∈ found, Defines (String.ofList o.spelling.name) argument := by
  obtain ⟨m, listed, rfl⟩ := List.mem_map.1 defines
  have named : m.1 ∈ options.names := List.mem_map_of_mem listed
  rw [names, List.mem_eraseDups] at named
  obtain ⟨o, there, same⟩ := List.mem_map.1 named
  refine ⟨o, there, ?_⟩
  rw [same]
  exact defines_define m.1 m.2

theorem exists_definition
    (names : options.names = (found.map fun o => String.ofList o.spelling.name).eraseDups)
    {o : Occurrence} (there : o ∈ found) :
    ∃ argument ∈ definitions options, Defines (String.ofList o.spelling.name) argument := by
  have named : String.ofList o.spelling.name ∈ options.names := by
    rw [names, List.mem_eraseDups]
    exact List.mem_map_of_mem (f := fun o : Occurrence => String.ofList o.spelling.name) there
  obtain ⟨⟨name, entry⟩, listed, same⟩ := List.mem_map.1 named
  obtain rfl : name = String.ofList o.spelling.name := same
  exact ⟨_, List.mem_map.2 ⟨_, listed, rfl⟩, defines_define _ entry⟩

theorem passed_definitions
    (names : options.names = (found.map fun o => String.ofList o.spelling.name).eraseDups) :
    Passed found (definitions options) where
  each := names ▸ defines_definitions options
  words := by
    intro argument defines
    obtain ⟨o, -, defined⟩ := exists_found_of_mem names defines
    refine ⟨_, ?_, defined⟩
    rw [String.toList_ofList]
    exact o.spelling.name_isRun
  plain := by
    constructor
    · intro plainly o there c inside
      obtain ⟨argument, defines, defined⟩ := exists_definition names there
      obtain ⟨name, plain, defined'⟩ := plainly argument defines
      obtain rfl := defined.unique defined'
      rw [String.toList_ofList] at plain
      exact (isPlain_iff.1 (plain.all c inside)).2
    · intro ascii argument defines
      obtain ⟨o, there, defined⟩ := exists_found_of_mem names defines
      refine ⟨_, ⟨?_, ?_⟩, defined⟩
      · rw [String.toList_ofList]
        exact o.spelling.name_isRun.ne_nil
      · intro c inside
        rw [String.toList_ofList] at inside
        exact isPlain_iff.2 ⟨o.spelling.name_isRun.all c inside, ascii o there c inside⟩

/-- Whatever snapshot there is and wherever the source lies, the options of a text are passed on as
the source and the definitions of the declarations that are taken from the text. -/
theorem exists_passed (text : String) : ∃ found, Search text.toList 0 found ∧
    ∀ saved source, ∃ definitions,
      configure source ((OptionSet.scan text).merge saved) = source :: definitions ∧
        Passed found definitions := by
  obtain ⟨found, search, options⟩ := exists_search_scan text
  refine ⟨found, search, fun saved source => ⟨_, rfl, passed_definitions ?_⟩⟩
  rw [OptionSet.names_merge, options]
  exact search.scanned.ordered

/-- A declaration whose name is a letter that is not ASCII. -/
def accented : String :=
  "option(\u00c9 \"x\" ON)"

/-- It is passed on as a definition of this name, which is no plain identifier. -/
theorem accented_not_plain :
    configure [] ((OptionSet.scan accented).merge none) = [[], Text.bytes "-D\u00c9=ON"] ∧
      ¬ PlainlyDefines (Text.bytes "-D\u00c9=ON") := by
  refine ⟨by decide +kernel, ?_⟩
  rintro ⟨name, plain, defined⟩
  obtain rfl := defined.unique (.inl rfl : Defines "\u00c9" _)
  exact absurd (plain.all 'É' (by decide +kernel)) (by decide +kernel)

end Declaration

end BuildPanel
