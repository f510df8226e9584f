import BuildPanel.Invocation
import BuildPanel.Proofs.Text.Utf8

/-!
The arguments of a configuration read back. What an argument defines is told from its ends alone: a
name may hold equals signs and switches of its own, and is still what stands between `-D` and the
last equals sign. So two configurations are called with the same arguments only if they have the
same source and the same choices.
-/

namespace BuildPanel

/-- The names with their values, in order: a set without its descriptions. -/
def OptionSet.choices (options : OptionSet) : List (String × Bool) :=
  options.toList.map fun m => (m.1, m.2.value)

namespace Invocation

/-- The name and the value of a definition, behind `-D` and from the end to the front. -/
def settingOf? : List Char → Option (String × Bool)
  | 'N' :: 'O' :: '=' :: name => some (String.ofList name.reverse, true)
  | 'F' :: 'F' :: 'O' :: '=' :: name => some (String.ofList name.reverse, false)
  | _ => none

/-- What an argument defines, if it has the form of a definition. -/
def defined? (argument : List UInt8) : Option (String × Bool) :=
  match Text.decode? argument with
  | some ('-' :: 'D' :: setting) => settingOf? setting.reverse
  | _ => none

theorem defined?_define (name : String) (entry : OptionEntry) :
    defined? (define name entry) = some (name, entry.value) := by
  have front : "-D".toList = ['-', 'D'] := by decide +kernel
  have ends : ("=" ++ switch entry.value).toList.reverse =
      (if entry.value then ['N', 'O', '='] else ['F', 'F', 'O', '=']) := by
    cases entry.value <;> decide +kernel
  have whole : ("-D" ++ name ++ "=" ++ switch entry.value).toList =
      '-' :: 'D' :: (name.toList ++ ("=" ++ switch entry.value).toList) := by
    simp only [String.toList_append, front, List.append_assoc, List.cons_append, List.nil_append]
  rw [defined?, define, Text.bytes, Text.decode?_encode, whole]
  change settingOf? (name.toList ++ ("=" ++ switch entry.value).toList).reverse = _
  rw [List.reverse_append, ends]
  cases entry.value with
  | true => simp [settingOf?]
  | false => simp [settingOf?]

/-- An argument defines a name: it is `-D`, the name, an equals sign, and `ON` or `OFF`. -/
def Defines (name : String) (argument : List UInt8) : Prop :=
  argument = Text.bytes ("-D" ++ name ++ "=ON") ∨ argument = Text.bytes ("-D" ++ name ++ "=OFF")

theorem define_eq (name : String) (entry : OptionEntry) :
    define name entry =
      if entry.value then Text.bytes ("-D" ++ name ++ "=ON")
      else Text.bytes ("-D" ++ name ++ "=OFF") := by
  have on : "=" ++ switch true = "=ON" := by decide +kernel
  have off : "=" ++ switch false = "=OFF" := by decide +kernel
  rw [define, String.append_assoc]
  cases entry.value with
  | true => rw [on, if_pos rfl]
  | false => rw [off, if_neg nofun]

theorem defines_define (name : String) (entry : OptionEntry) :
    Defines name (define name entry) := by
  rw [Defines, define_eq]
  cases entry.value with
  | true => exact .inl rfl
  | false => exact .inr rfl

/-- What an argument defines is read from it. -/
theorem Defines.read {name : String} {argument : List UInt8} (h : Defines name argument) :
    ∃ value, defined? argument = some (name, value) := by
  rcases h with rfl | rfl
  · exact ⟨true, by rw [← defined?_define name ⟨"", true⟩, define_eq, if_pos rfl]⟩
  · exact ⟨false, by rw [← defined?_define name ⟨"", false⟩, define_eq, if_neg nofun]⟩

/-- An argument defines one name at most. -/
theorem Defines.unique {name name' : String} {argument : List UInt8} (h : Defines name argument)
    (h' : Defines name' argument) : name = name' := by
  obtain ⟨value, found⟩ := h.read
  obtain ⟨value', found'⟩ := h'.read
  exact congrArg Prod.fst (Option.some.inj (found.symm.trans found'))

/-- The arguments of a configuration are the source and one definition for every option, in the
order of the set. -/
theorem defined?_configure (source : List UInt8) (options : OptionSet) :
    ∃ definitions, configure source options = source :: definitions ∧
      definitions.map defined? = options.toList.map fun m => some (m.1, m.2.value) := by
  refine ⟨_, rfl, ?_⟩
  rw [List.map_map]
  exact List.map_congr_left fun m _ => defined?_define m.1 m.2

/-- The definitions depend on the names and values alone. -/
theorem configure_eq_choices (source : List UInt8) (options : OptionSet) :
    configure source options =
      source :: options.choices.map fun c => define c.1 ⟨"", c.2⟩ := by
  rw [configure, OptionSet.choices, List.map_map]
  rfl

/-- The choices are read back from the definitions. -/
theorem choices_of_configure {source first : List UInt8} {definitions : List (List UInt8)}
    {options : OptionSet} (h : configure source options = first :: definitions) :
    source = first ∧ definitions.map defined? = options.choices.map some := by
  obtain ⟨passed, called, read⟩ := defined?_configure source options
  rw [called] at h
  obtain ⟨rfl, rfl⟩ := List.cons.inj h
  refine ⟨rfl, ?_⟩
  rw [read, OptionSet.choices, List.map_map]
  rfl

/-- Two configurations are called with the same arguments if and only if their sources are the same
byte for byte and their options have the same names with the same values in the same order. Nothing
but the descriptions is left out of a call. -/
theorem configure_eq_iff {source source' : List UInt8} {options options' : OptionSet} :
    configure source options = configure source' options' ↔
      source = source' ∧ options.choices = options'.choices := by
  constructor
  · intro same
    have called := configure_eq_choices source' options'
    obtain ⟨sources, read⟩ := choices_of_configure (same.trans called)
    obtain ⟨-, read'⟩ := choices_of_configure called
    refine ⟨sources, ?_⟩
    exact (List.map_inj_right fun _ _ => Option.some.inj).1 (read.symm.trans read')
  · rintro ⟨rfl, same⟩
    rw [configure_eq_choices, configure_eq_choices, same]

end Invocation

end BuildPanel
