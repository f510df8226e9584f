import BuildPanel.Toml.Text

/-!
Strings of TOML come back. Whatever form the writer takes for a text, the reader gives the
same text and stops behind its last quote, provided no further quote follows there. In the triple
forms the last quotes of a text run together with the closing ones; the reader takes the first three
of a run of at most five for the end only after it has counted those that belong to the text.
-/

namespace BuildPanel.Toml

/-! ### Escapes -/

theorem hexValue?_hexDigit (n : Nat) : hexValue? (hexDigit n) = some (n % 16) := by
  have table : ∀ m < 16, hexValue? (Nat.digitChar m).toUpper = some m := by decide
  exact table (n % 16) (Nat.mod_lt n (by decide))

theorem toNat_lt_of_isControl {c : Char} (h : isControl c = true) : c.toNat < 128 := by
  simp only [isControl, Bool.and_eq_true, Bool.or_eq_true, decide_eq_true_eq] at h
  omega

/-- An escape by number gives the control it was written for. -/
theorem numbered?_hexDigit {c : Char} (h : isControl c = true) :
    numbered? ['0', '0', hexDigit (c.toNat / 16), hexDigit c.toNat] = some c := by
  have small := toNat_lt_of_isControl h
  have zero : hexValue? '0' = some 0 := by decide
  have number : c.toNat / 16 % 16 * 16 + c.toNat % 16 = c.toNat := by omega
  have digits : hexNumber? ['0', '0', hexDigit (c.toNat / 16), hexDigit c.toNat] =
      some c.toNat := by
    simp [hexNumber?, List.foldlM, zero, hexValue?_hexDigit, number]
  have valid : c.toNat.isValidChar := Or.inl (by omega)
  simp [numbered?, digits, charOf?, valid, Char.ofNat_toNat]

/-- A code after a backslash that stands for one character on a line of its own. -/
structure Escapes (code : List Char) (c : Char) : Prop where
  read : ∀ rest, readEscape (code ++ rest) = some (c, rest)
  /-- The backslash does not join two lines. -/
  stays : ∀ rest, readLineEnd (skipBlanks (code ++ rest)) = none

/-- In double quotes a character stands for itself, or a backslash and a code stand for it. -/
def Written (written : List Char) (c : Char) : Prop :=
  written = [c] ∧ c ≠ '\\' ∧ isControl c = false ∨
    ∃ code, written = '\\' :: code ∧ Escapes code c

theorem written_escapeChar (c : Char) : Written (escapeChar c) c := by
  unfold escapeChar
  split
  · next h => exact .inr ⟨_, rfl, ⟨fun _ => by rw [h]; rfl, fun _ => rfl⟩⟩
  split
  · next h => exact .inr ⟨_, rfl, ⟨fun _ => by rw [h]; rfl, fun _ => rfl⟩⟩
  split
  · next h => exact .inr ⟨_, rfl, ⟨fun _ => by rw [h]; rfl, fun _ => rfl⟩⟩
  split
  · next h => exact .inr ⟨_, rfl, ⟨fun _ => by rw [h]; rfl, fun _ => rfl⟩⟩
  split
  · next h => exact .inr ⟨_, rfl, ⟨fun _ => by rw [h]; rfl, fun _ => rfl⟩⟩
  split
  · next control =>
    refine .inr ⟨_, rfl, ⟨fun rest => ?_, fun _ => rfl⟩⟩
    simp [readEscape, numbered?_hexDigit control]
  · next backslash plain => exact .inl ⟨rfl, backslash, by simpa using plain⟩

theorem written_escapeLine (c : Char) :
    Written (escapeLine c) c ∧ (escapeLine c = [c] → c ≠ '"' ∧ c ≠ '\n') := by
  unfold escapeLine
  split
  · next h =>
    refine ⟨.inr ⟨_, rfl, ⟨fun _ => by rw [h]; rfl, fun _ => rfl⟩⟩, fun same => ?_⟩
    cases same
  split
  · next h =>
    refine ⟨.inr ⟨_, rfl, ⟨fun _ => by rw [h]; rfl, fun _ => rfl⟩⟩, fun same => ?_⟩
    cases same
  · next quote lineEnd => exact ⟨written_escapeChar c, fun _ => ⟨quote, lineEnd⟩⟩

/-! ### One line -/

theorem isText_iff {c : Char} : isText c = true ↔ isControl c = false ∧ c ≠ '\n' := by
  simp [isText]

theorem basicBody_escapeLine (s rest bound met : List Char)
    (room : (s.flatMap escapeLine).length < bound.length) :
    basicBody bound met (s.flatMap escapeLine ++ '"' :: rest) =
      some (met.reverse ++ s, rest) := by
  induction s generalizing bound met with
  | nil =>
    cases bound with
    | nil => simp at room
    | cons => simp [basicBody]
  | cons c s ih =>
    cases bound with
    | nil => simp at room
    | cons b bound =>
      obtain ⟨written, quoted⟩ := written_escapeLine c
      simp only [List.flatMap_cons, List.length_append, List.length_cons, List.append_assoc]
        at room ⊢
      rcases written with ⟨same, backslash, plain⟩ | ⟨code, escaped, escapes⟩
      · obtain ⟨quote, lineEnd⟩ := quoted same
        have text : isText c = true := isText_iff.2 ⟨plain, lineEnd⟩
        rw [same, List.length_singleton] at room
        rw [same, List.singleton_append, basicBody, if_neg quote, if_neg backslash, if_pos text,
          ih bound (c :: met) (by omega)]
        simp
      · rw [escaped, List.length_cons] at room
        rw [escaped, List.cons_append, basicBody, if_neg (by decide), if_pos rfl, escapes.read]
        dsimp only
        rw [ih bound (c :: met) (by omega)]
        simp

theorem readBasic_basic (s rest : List Char) :
    readBasic (s.flatMap escapeLine ++ '"' :: rest) = some (s, rest) := by
  rw [readBasic, basicBody_escapeLine s rest _ [] (by simp)]
  rfl

/-- What the writer checks before it takes single quotes. -/
theorem text_of_plain {s : List Char} (plain : ∀ c ∈ s, ¬ isControl c = true)
    (oneLine : '\n' ∉ s) (quotes : '\'' ∉ s) : ∀ c ∈ s, isText c = true ∧ c ≠ '\'' := by
  intro c hc
  refine ⟨isText_iff.2 ⟨by simpa using plain c hc, ?_⟩, ?_⟩
  · rintro rfl
    exact oneLine hc
  · rintro rfl
    exact quotes hc

theorem readLiteral_literal {s : List Char} (text : ∀ c ∈ s, isText c = true ∧ c ≠ '\'')
    (rest : List Char) : readLiteral (s ++ '\'' :: rest) = some (s, rest) := by
  have all : ∀ c ∈ s, (isText c && c ≠ '\'') = true := by
    intro c hc
    simpa using text c hc
  rw [readLiteral, List.dropWhile_append_of_pos all, List.takeWhile_append_of_pos all]
  simp

/-! ### Several lines -/

/-- Fewer than three quotes at the front close nothing. -/
theorem closing_eq_none {q : Char} {s : List Char} (open_ : ¬ [q, q, q] <+: s) (met : List Char) :
    closing q met s = none := by
  match s with
  | [] | [_] | [_, _] => rfl
  | a :: b :: c :: rest =>
    have some_other : ¬ (a = q ∧ b = q ∧ c = q) := by
      rintro ⟨rfl, rfl, rfl⟩
      exact open_ ⟨rest, rfl⟩
    simp [closing, some_other]

/-- Of a run of up to five quotes all but three belong to the text. -/
theorem closing_replicate {q : Char} {rest : List Char} (apart : rest.head? ≠ some q) {n : Nat}
    (few : n ≤ 2) (met : List Char) :
    closing q met (List.replicate n q ++ q :: q :: q :: rest) =
      some (met.reverse ++ List.replicate n q, rest) := by
  have other : ∀ {e : Char} {more : List Char}, rest = e :: more → e ≠ q := by
    rintro e more rfl rfl
    exact apart rfl
  match n, few with
  | 0, _ =>
    cases rest with
    | nil => simp [closing]
    | cons e more => simp [closing, other rfl]
  | 1, _ =>
    cases rest with
    | nil => simp [closing]
    | cons e more => simp [closing, other rfl]
  | 2, _ => simp [closing]

/-- After two quotes, and in front of anything but a quote, no quote is written as it is. -/
theorem escapeLines_cons {quotes : Nat} {c : Char} (h : c ≠ '"' ∨ quotes = 2) (s : List Char) :
    ∃ d more, escapeLines quotes (c :: s) = d :: more ∧ d ≠ '"' := by
  by_cases quote : c = '"'
  · subst quote
    obtain rfl := h.resolve_left (by simp)
    exact ⟨_, _, rfl, by decide⟩
  · rw [escapeLines, if_neg quote]
    rcases written_escapeChar c with ⟨same, -, -⟩ | ⟨code, escaped, -⟩
    · exact ⟨c, _, by rw [same]; rfl, quote⟩
    · exact ⟨'\\', _, by rw [escaped]; rfl, by decide⟩

/-- What follows a quote that is written as it is: the end of the text, so that the quote runs
together with the closing ones, or no two further quotes. -/
theorem quotes_after {quotes : Nat} (few : quotes < 2) (s rest : List Char) :
    (∃ n, n + 1 ≤ 2 ∧ s = List.replicate n '"' ∧ escapeLines (quotes + 1) s = s) ∨
      ¬ ['"', '"', '"'] <+: '"' :: (escapeLines (quotes + 1) s ++ '"' :: '"' :: '"' :: rest) := by
  rcases s with - | ⟨c, s⟩
  · exact .inl ⟨0, by decide, rfl, rfl⟩
  by_cases other : c ≠ '"' ∨ quotes + 1 = 2
  · obtain ⟨d, more, written, first⟩ := escapeLines_cons other s
    right
    simp [written, List.cons_prefix_cons, Ne.symm first]
  · obtain ⟨rfl, rfl⟩ : c = '"' ∧ quotes = 0 := by
      have one : ¬ quotes + 1 = 2 := fun h => other (.inr h)
      exact ⟨Classical.not_not.1 fun h => other (.inl h), by omega⟩
    rcases s with - | ⟨d, s⟩
    · exact .inl ⟨1, by decide, rfl, rfl⟩
    · have full : d ≠ '"' ∨ 2 = 2 := .inr rfl
      obtain ⟨e, more, written, second⟩ := escapeLines_cons full s
      right
      rw [escapeLines, if_pos rfl, if_neg (by decide), written]
      simp [List.cons_prefix_cons, Ne.symm second]

/-- One written character is read in one step. -/
theorem basicLinesBody_written {w : List Char} {c : Char} (written : Written w c)
    (quoted : w = [c] → c ≠ '"') (b : Char) (bound met rest : List Char) :
    basicLinesBody (b :: bound) met (w ++ rest) = basicLinesBody bound (c :: met) rest := by
  rcases written with ⟨same, backslash, plain⟩ | ⟨code, escaped, escapes⟩
  · rw [same, List.singleton_append, basicLinesBody, if_neg (quoted same), if_neg backslash]
    by_cases lineEnd : c = '\n'
    · subst lineEnd
      rfl
    · rw [if_pos (isText_iff.2 ⟨plain, lineEnd⟩)]
  · rw [escaped, List.cons_append, basicLinesBody, if_neg (by decide), if_pos rfl,
      escapes.stays, escapes.read]

theorem basicLinesBody_escapeLines {rest : List Char} (apart : rest.head? ≠ some '"')
    (s : List Char) {quotes : Nat} (few : quotes ≤ 2) (bound met : List Char)
    (room : (escapeLines quotes s).length < bound.length) :
    basicLinesBody bound met (escapeLines quotes s ++ '"' :: '"' :: '"' :: rest) =
      some (met.reverse ++ s, rest) := by
  induction s generalizing quotes bound met with
  | nil =>
    cases bound with
    | nil => simp at room
    | cons b bound =>
      have ends := closing_replicate apart (Nat.zero_le 2) met
      simp only [List.replicate_zero, List.nil_append, List.append_nil] at ends
      rw [escapeLines, List.nil_append, basicLinesBody, if_pos rfl, ends, List.append_nil]
  | cons c s ih =>
    cases bound with
    | nil => simp at room
    | cons b bound =>
      have goOn : met.reverse ++ c :: s = (c :: met).reverse ++ s := by simp
      by_cases quote : c = '"'
      · subst quote
        rw [escapeLines, if_pos rfl] at room ⊢
        by_cases full : quotes = 2
        · rw [if_pos full] at room ⊢
          have escaped : Written ['\\', '"'] '"' :=
            .inr ⟨['"'], rfl, ⟨fun _ => rfl, fun _ => rfl⟩⟩
          rw [List.length_cons, List.length_cons, List.length_cons] at room
          rw [goOn, ← ih (Nat.zero_le 2) bound ('"' :: met) (by omega)]
          exact basicLinesBody_written escaped nofun b bound met _
        · rw [if_neg full] at room ⊢
          rw [List.cons_append, basicLinesBody, if_pos rfl]
          rcases quotes_after (by omega : quotes < 2) s rest with ⟨n, short, run, same⟩ | open_
          · -- The text ends here, and its last quotes with the closing ones make up one run.
            have ends := closing_replicate apart short met
            rw [List.replicate_succ, ← run, List.cons_append] at ends
            rw [same, ends]
          · rw [closing_eq_none open_, goOn]
            rw [List.length_cons, List.length_cons] at room
            exact ih (by omega) bound ('"' :: met) (by omega)
      · rw [escapeLines, if_neg quote] at room ⊢
        have some_ : 0 < (escapeChar c).length := by
          rcases written_escapeChar c with ⟨same, -⟩ | ⟨code, escaped, -⟩
          · simp [same]
          · simp [escaped]
        rw [List.length_append, List.length_cons] at room
        rw [List.append_assoc, basicLinesBody_written (written_escapeChar c) (fun _ => quote),
          goOn]
        exact ih (Nat.zero_le 2) bound (c :: met) (by omega)

/-- What follows a single quote in a text without three of them: the end of the text, or no two
further quotes. -/
theorem singles_after {s : List Char} (noTriple : hasTriple '\'' ('\'' :: s) = false)
    (rest : List Char) :
    (∃ n, n + 1 ≤ 2 ∧ s = List.replicate n '\'') ∨
      ¬ ['\'', '\'', '\''] <+: '\'' :: (s ++ '\'' :: '\'' :: '\'' :: rest) := by
  match s with
  | [] => exact .inl ⟨0, by decide, rfl⟩
  | [d] =>
    by_cases quote : d = '\''
    · exact .inl ⟨1, by decide, by rw [quote]; rfl⟩
    · right
      simp [List.cons_prefix_cons, Ne.symm quote]
  | d :: e :: more =>
    right
    simp only [hasTriple, Bool.or_eq_false_iff, Bool.and_eq_false_iff, decide_eq_false_iff_not]
      at noTriple
    simp only [List.cons_append, List.cons_prefix_cons]
    rintro ⟨-, rfl, rfl, -⟩
    simp at noTriple

theorem hasTriple_of_cons {q c : Char} {s : List Char} (h : hasTriple q (c :: s) = false) :
    hasTriple q s = false := by
  match s with
  | [] | [_] => rfl
  | a :: b :: more =>
    rw [hasTriple, Bool.or_eq_false_iff] at h
    exact h.2

theorem literalLinesBody_literal {rest : List Char} (apart : rest.head? ≠ some '\'')
    {s : List Char} (plain : ∀ c ∈ s, isControl c = false) (noTriple : hasTriple '\'' s = false)
    (bound met : List Char) (room : s.length < bound.length) :
    literalLinesBody bound met (s ++ '\'' :: '\'' :: '\'' :: rest) =
      some (met.reverse ++ s, rest) := by
  induction s generalizing bound met with
  | nil =>
    cases bound with
    | nil => simp at room
    | cons b bound =>
      have ends := closing_replicate apart (Nat.zero_le 2) met
      simp only [List.replicate_zero, List.nil_append, List.append_nil] at ends
      rw [List.nil_append, literalLinesBody, if_pos rfl, ends, List.append_nil]
  | cons c s ih =>
    cases bound with
    | nil => simp at room
    | cons b bound =>
      have goOn : met.reverse ++ c :: s = (c :: met).reverse ++ s := by simp
      rw [List.length_cons, List.length_cons] at room
      have step := ih (fun d hd => plain d (List.mem_cons_of_mem c hd)) (hasTriple_of_cons noTriple)
        bound (c :: met) (by omega)
      rw [List.cons_append, literalLinesBody]
      by_cases quote : c = '\''
      · subst quote
        rw [if_pos rfl]
        rcases singles_after noTriple rest with ⟨n, short, run⟩ | open_
        · -- The text ends here, and its last quotes with the closing ones make up one run.
          have ends := closing_replicate apart short met
          rw [List.replicate_succ, ← run, List.cons_append] at ends
          rw [ends]
        · rw [closing_eq_none open_, goOn]
          exact step
      · rw [if_neg quote, goOn, ← step]
        by_cases lineEnd : c = '\n'
        · subst lineEnd
          rfl
        · rw [if_pos (isText_iff.2 ⟨plain c List.mem_cons_self, lineEnd⟩)]

/-! ### All forms -/

/-- The line end after the opening quotes is skipped, and nothing else. -/
theorem skipOpening_opening {s body : List Char}
    (first : '\n' ∉ s → readLineEnd body = none) :
    skipOpening (opening s ++ body) = body := by
  unfold opening
  by_cases several : '\n' ∈ s
  · simp [several, skipOpening, readLineEnd]
  · simp [several, skipOpening, first several]

theorem readLineEnd_cons {c : Char} (feed : c ≠ '\n') (plain : isControl c = false)
    (rest : List Char) : readLineEnd (c :: rest) = none := by
  have carriage : c ≠ '\r' := by
    rintro rfl
    simp [isControl] at plain
  unfold readLineEnd
  split
  · next same =>
    cases same
    exact absurd rfl feed
  · next same =>
    cases same
    exact absurd rfl carriage
  · rfl

theorem readLineEnd_escapeLines {s : List Char} (oneLine : '\n' ∉ s) (rest : List Char) :
    readLineEnd (escapeLines 0 s ++ '"' :: '"' :: '"' :: rest) = none := by
  cases s with
  | nil => rfl
  | cons c s =>
    rw [List.mem_cons, not_or] at oneLine
    by_cases quote : c = '"'
    · subst quote
      rfl
    · rw [escapeLines, if_neg quote]
      rcases written_escapeChar c with ⟨same, -, plain⟩ | ⟨code, escaped, -⟩
      · rw [same]
        exact readLineEnd_cons (Ne.symm oneLine.1) plain _
      · rw [escaped]
        rfl

theorem readString_of_not_double {s : List Char} (short : ¬ ['"', '"'] <+: s) :
    readString ('"' :: s) = readBasic s := by
  unfold readString
  split
  · next same =>
    cases same
    exact absurd ⟨_, rfl⟩ short
  · next same =>
    cases same
    rfl
  · next same => cases same
  · next same => cases same
  · next other _ _ => exact absurd rfl (other s)

theorem readString_of_not_single {s : List Char} (short : ¬ ['\'', '\''] <+: s) :
    readString ('\'' :: s) = readLiteral s := by
  unfold readString
  split
  · next same => cases same
  · next same => cases same
  · next same =>
    cases same
    exact absurd ⟨_, rfl⟩ short
  · next same =>
    cases same
    rfl
  · next other => exact absurd rfl (other s)

theorem readString_basic (s : List Char) {rest : List Char} (apart : rest.head? ≠ some '"') :
    readString (basic s ++ rest) = some (s, rest) := by
  have short : ¬ ['"', '"'] <+: s.flatMap escapeLine ++ '"' :: rest := by
    cases s with
    | nil =>
      cases rest with
      | nil => simp
      | cons d rest =>
        rintro ⟨more, same⟩
        cases same
        exact apart rfl
    | cons c s =>
      obtain ⟨written, quoted⟩ := written_escapeLine c
      rcases written with ⟨same, -⟩ | ⟨code, escaped, -⟩
      · simp [same, List.cons_prefix_cons, Ne.symm (quoted same).1]
      · simp [escaped, List.cons_prefix_cons]
  simp only [basic, List.cons_append, List.append_assoc, List.nil_append]
  rw [readString_of_not_double short, readBasic_basic]

theorem readString_literal {s : List Char} (text : ∀ c ∈ s, isText c = true ∧ c ≠ '\'')
    {rest : List Char} (apart : rest.head? ≠ some '\'') :
    readString (literal s ++ rest) = some (s, rest) := by
  have short : ¬ ['\'', '\''] <+: s ++ '\'' :: rest := by
    cases s with
    | nil =>
      cases rest with
      | nil => simp
      | cons d rest =>
        rintro ⟨more, same⟩
        cases same
        exact apart rfl
    | cons c s =>
      obtain ⟨-, quote⟩ := text c List.mem_cons_self
      simp [List.cons_prefix_cons, Ne.symm quote]
  simp only [literal, List.cons_append, List.append_assoc, List.nil_append]
  rw [readString_of_not_single short, readLiteral_literal text]

theorem readString_basicLines (s : List Char) {rest : List Char} (apart : rest.head? ≠ some '"') :
    readString (basicLines s ++ rest) = some (s, rest) := by
  simp only [basicLines, List.cons_append, List.append_assoc, List.nil_append]
  rw [readString, skipOpening_opening fun oneLine => readLineEnd_escapeLines oneLine rest,
    basicLinesBody_escapeLines apart s (Nat.zero_le 2) _ []]
  · rfl
  · simp
    omega

theorem readString_literalLines {s : List Char} (plain : ∀ c ∈ s, isControl c = false)
    (noTriple : hasTriple '\'' s = false) {rest : List Char} (apart : rest.head? ≠ some '\'') :
    readString (literalLines s ++ rest) = some (s, rest) := by
  have first : '\n' ∉ s → readLineEnd (s ++ '\'' :: '\'' :: '\'' :: rest) = none := by
    intro oneLine
    cases s with
    | nil => rfl
    | cons c s =>
      rw [List.mem_cons, not_or] at oneLine
      exact readLineEnd_cons (Ne.symm oneLine.1) (plain c List.mem_cons_self) _
  simp only [literalLines, List.cons_append, List.append_assoc, List.nil_append]
  rw [readString, skipOpening_opening first, literalLinesBody_literal apart plain noTriple _ []]
  · rfl
  · simp
    omega

/-- A string comes back, whatever form fitted it. -/
theorem readString_writeString (s : List Char) {rest : List Char}
    (double : rest.head? ≠ some '"') (single : rest.head? ≠ some '\'') :
    readString (writeString s ++ rest) = some (s, rest) := by
  unfold writeString
  dsimp only
  split
  · exact readString_basic s double
  split
  · next fits =>
    simp only [Bool.and_eq_true, Bool.not_eq_true', List.any_eq_false, List.contains_eq_mem,
      decide_eq_false_iff_not] at fits
    obtain ⟨⟨plain, oneLine⟩, quotes⟩ := fits
    exact readString_literal (text_of_plain plain oneLine quotes) single
  split
  · exact readString_basicLines s double
  split
  · next fits =>
    simp only [Bool.and_eq_true, Bool.not_eq_true', List.any_eq_false] at fits
    obtain ⟨plain, noTriple⟩ := fits
    exact readString_literalLines (fun c hc => by simpa using plain c hc) noTriple single
  split
  · exact readString_basic s double
  · exact readString_basicLines s double

/-- A string starts with a quote. -/
theorem writeString_cons (s : List Char) :
    ∃ c more, writeString s = c :: more ∧ (c = '"' ∨ c = '\'') := by
  unfold writeString
  dsimp only
  split
  · exact ⟨_, _, rfl, .inl rfl⟩
  split
  · exact ⟨_, _, rfl, .inr rfl⟩
  split
  · exact ⟨_, _, rfl, .inl rfl⟩
  split
  · exact ⟨_, _, rfl, .inr rfl⟩
  split
  · exact ⟨_, _, rfl, .inl rfl⟩
  · exact ⟨_, _, rfl, .inl rfl⟩

end BuildPanel.Toml
