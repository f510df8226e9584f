import BuildPanel.Toml.Statement
import BuildPanel.Proofs.Toml.Key

/-!
Lines of a document come back: headers of one name, and pairs of a plain key and a value that is a
string or a truth value. A line is read to its end and no further, so that lines are read one after
another.
-/

namespace BuildPanel.Toml

theorem readPath_of_readKey {s rest : List Char} {key : Key} (h : readKey s = some ([key], rest)) :
    readPath s = some (⟨[], key⟩, rest) := by
  simp [readPath, h, Path.ofParts?]

theorem readLineTail_feed (rest : List Char) : readLineTail ('\n' :: rest) = some rest := rfl

/-! ### Values -/

theorem readValue_writeString (text : List Char) (rest : List Char) :
    readValue (writeString text ++ '\n' :: rest) =
      some (.scalar (.string text), '\n' :: rest) := by
  have read := @readString_writeString text ('\n' :: rest) (by simp) (by simp)
  obtain ⟨c, more, written, rfl | rfl⟩ := writeString_cons text
  · rw [written, List.cons_append] at read ⊢
    simp [readValue, depthLimit, readValueWithin, readScalar, read]
  · rw [written, List.cons_append] at read ⊢
    simp [readValue, depthLimit, readValueWithin, readScalar, read]

theorem readValue_true (rest : List Char) :
    readValue ("true".toList ++ rest) = some (.scalar (.boolean true), rest) := rfl

theorem readValue_false (rest : List Char) :
    readValue ("false".toList ++ rest) = some (.scalar (.boolean false), rest) := rfl

/-! ### Statements -/

theorem readStatement_header (name rest : List Char) :
    readStatement ('[' :: (writeKey name ++ ']' :: '\n' :: rest)) =
      some (.header ⟨[], name⟩, rest) := by
  have key := readKey_writeKey name (d := ']') (by decide) (by decide) (by decide) ('\n' :: rest)
  obtain ⟨c, more, written, first⟩ := writeKey_cons name
  have single : c ≠ '[' := by
    rintro rfl
    revert first
    decide
  rw [written, List.cons_append] at key ⊢
  unfold readStatement
  split
  · next same =>
    cases same
    exact absurd rfl single
  · next same =>
    cases same
    simp [readPath_of_readKey key, readLineTail_feed]
  · next other => exact absurd rfl (other _)

theorem readStatement_pair {c : Char} {key : List Char}
    (bare : ∀ b ∈ c :: key, isBare b = true) {written rest : List Char} {value : Node}
    (front : skipBlanks (written ++ '\n' :: rest) = written ++ '\n' :: rest)
    (read : readValue (written ++ '\n' :: rest) = some (value, '\n' :: rest)) :
    readStatement (c :: key ++ ' ' :: '=' :: ' ' :: (written ++ '\n' :: rest)) =
      some (.pair ⟨[], c :: key⟩ value, rest) := by
  have letter := bare c List.mem_cons_self
  have plain : c ≠ '[' := by
    rintro rfl
    exact absurd letter (by decide)
  have path : readPath (c :: key ++ ' ' :: '=' :: ' ' :: (written ++ '\n' :: rest)) =
      some (⟨[], c :: key⟩, '=' :: ' ' :: (written ++ '\n' :: rest)) :=
    readPath_of_readKey (readKey_of_simple (skipBlanks_cons (isBlank_of_isBare letter) _)
      (readSimpleKey_bare bare (by decide) _) rfl (by decide))
  have blank : skipBlanks (' ' :: (written ++ '\n' :: rest)) = written ++ '\n' :: rest := front
  unfold readStatement
  split
  · next same => exact absurd (List.cons.inj same).1 plain
  · next same => exact absurd (List.cons.inj same).1 plain
  · rw [path]
    simp [blank, read, readLineTail_feed]

/-! ### Lines one after another -/

theorem readStatements_nil (bound : List Char) (met : List Statement) :
    readStatements bound met [] = some met.reverse := by
  cases bound with
  | nil => rfl
  | cons => rfl

theorem readStatements_feed (b : Char) (bound : List Char) (met : List Statement)
    (rest : List Char) :
    readStatements (b :: bound) met ('\n' :: rest) = readStatements bound met rest := by
  simp [readStatements, skipBlanks, isBlank, readLineTail_feed]

/-- A line that starts with neither a blank nor a comment nor a line end is a statement. -/
theorem readStatements_cons {c : Char} (solid : isBlank c = false ∧ c ≠ '#' ∧ c ≠ '\n' ∧ c ≠ '\r')
    {s rest : List Char} {statement : Statement}
    (read : readStatement (c :: s) = some (statement, rest)) (b : Char) (bound : List Char)
    (met : List Statement) :
    readStatements (b :: bound) met (c :: s) = readStatements bound (statement :: met) rest := by
  obtain ⟨blank, comment, feed, carriage⟩ := solid
  simp [readStatements, skipBlanks_cons blank, comment, feed, carriage, read]

end BuildPanel.Toml
