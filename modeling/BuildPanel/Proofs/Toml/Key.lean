import BuildPanel.Proofs.Toml.Text

/-!
Keys of TOML come back, bare or quoted, provided nothing follows that could belong to a bare key.
-/

namespace BuildPanel.Toml

/-- A key starts with a quote or with a character of a key without quotes. -/
theorem writeKey_cons (s : List Char) :
    ∃ c more, writeKey s = c :: more ∧ (c = '"' ∨ c = '\'' ∨ isBare c = true) := by
  unfold writeKey
  dsimp only
  split
  · next fits =>
    cases s with
    | nil => simp at fits
    | cons c s =>
      simp only [Bool.and_eq_true, List.all_cons] at fits
      exact ⟨c, s, rfl, .inr (.inr fits.2.1)⟩
  split
  · exact ⟨_, _, rfl, .inl rfl⟩
  split
  · exact ⟨_, _, rfl, .inr (.inl rfl)⟩
  · exact ⟨_, _, rfl, .inl rfl⟩

theorem readSimpleKey_basic (s rest : List Char) :
    readSimpleKey (basic s ++ rest) = some (s, rest) := by
  simp only [basic, List.cons_append, List.append_assoc, List.nil_append]
  exact readBasic_basic s rest

theorem readSimpleKey_literal {s : List Char} (text : ∀ c ∈ s, isText c = true ∧ c ≠ '\'')
    (rest : List Char) : readSimpleKey (literal s ++ rest) = some (s, rest) := by
  simp only [literal, List.cons_append, List.append_assoc, List.nil_append]
  exact readLiteral_literal text rest

theorem readSimpleKey_bare {c : Char} {s : List Char} (bare : ∀ b ∈ c :: s, isBare b = true)
    {d : Char} (stop : isBare d = false) (rest : List Char) :
    readSimpleKey (c :: s ++ d :: rest) = some (c :: s, d :: rest) := by
  have first := bare c List.mem_cons_self
  unfold readSimpleKey
  split
  · next same =>
    cases same
    exact absurd first (by decide)
  · next same =>
    cases same
    exact absurd first (by decide)
  · rw [List.takeWhile_append_of_pos bare, List.dropWhile_append_of_pos bare]
    simp [stop]

/-- A key comes back if a character follows that no key without quotes has. -/
theorem readSimpleKey_writeKey (s : List Char) {d : Char} (stop : isBare d = false)
    (rest : List Char) : readSimpleKey (writeKey s ++ d :: rest) = some (s, d :: rest) := by
  unfold writeKey
  dsimp only
  split
  · next fits =>
    cases s with
    | nil => simp at fits
    | cons c s =>
      simp only [List.isEmpty_cons, Bool.not_false, Bool.true_and, List.all_eq_true] at fits
      exact readSimpleKey_bare fits stop rest
  split
  · exact readSimpleKey_basic s _
  split
  · next fits =>
    simp only [Bool.and_eq_true, Bool.not_eq_true', List.any_eq_false, List.contains_eq_mem,
      decide_eq_false_iff_not] at fits
    obtain ⟨⟨plain, oneLine⟩, quotes⟩ := fits
    exact readSimpleKey_literal (text_of_plain plain oneLine quotes) _
  · exact readSimpleKey_basic s _

theorem skipBlanks_cons {c : Char} (h : isBlank c = false) (rest : List Char) :
    skipBlanks (c :: rest) = c :: rest := by
  simp [skipBlanks, h]

/-- A key without dots is one part. -/
theorem readKey_of_simple {s key rest : List Char} (front : skipBlanks s = s)
    (simple : readSimpleKey s = some (key, rest)) {d : Char} {after : List Char}
    (stop : skipBlanks rest = d :: after) (dot : d ≠ '.') :
    readKey s = some ([key], d :: after) := by
  rw [readKey, keyLimit, keyParts, front, simple]
  dsimp only
  rw [stop]
  split
  · next same =>
    cases same
    exact absurd rfl dot
  · rfl

theorem isBlank_of_isBare {c : Char} (h : isBare c = true) : isBlank c = false := by
  rw [isBlank, Bool.or_eq_false_iff, decide_eq_false_iff_not, decide_eq_false_iff_not]
  constructor
  · rintro rfl
    exact absurd h (by decide)
  · rintro rfl
    exact absurd h (by decide)

theorem readKey_writeKey (s : List Char) {d : Char} (bare : isBare d = false)
    (blank : isBlank d = false) (dot : d ≠ '.') (rest : List Char) :
    readKey (writeKey s ++ d :: rest) = some ([s], d :: rest) := by
  have front : skipBlanks (writeKey s ++ d :: rest) = writeKey s ++ d :: rest := by
    obtain ⟨c, more, written, first⟩ := writeKey_cons s
    rw [written, List.cons_append]
    refine skipBlanks_cons ?_ _
    rcases first with rfl | rfl | letter
    · rfl
    · rfl
    · exact isBlank_of_isBare letter
  exact readKey_of_simple front (readSimpleKey_writeKey s bare rest) (skipBlanks_cons blank rest)
    dot

end BuildPanel.Toml
