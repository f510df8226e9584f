import Mathlib.Tactic.SplitIfs
import BuildPanel.Text.Utf8

/-!
Reading back what was written as UTF-8. The encoding of a character is one sequence, whatever bytes
follow it; so the encoding of a text is read as its characters, and none of it is broken.
-/

namespace BuildPanel.Text

theorem toNat_ofNat {n : Nat} (h : n < 256) : (UInt8.ofNat n).toNat = n := by
  rw [UInt8.toNat_ofNat']
  omega

theorem toNat_continuation (n : Nat) : (continuation n).toNat = 0x80 + n % 64 :=
  toNat_ofNat (by omega)

@[simp]
theorem bits_continuation (n : Nat) : bits (continuation n) = n % 64 := by
  rw [bits, toNat_continuation]
  omega

@[simp]
theorem isContinuation_continuation (n : Nat) : isContinuation (continuation n) = true := by
  simp only [isContinuation, within, toNat_continuation, Bool.and_eq_true, decide_eq_true_eq]
  omega

/-- A lead byte of three bytes is followed by what no shorter encoding and no surrogate needs. -/
theorem isSecond_three {n : Nat} (long : 0x800 ≤ n) (short : n < 0x10000)
    (valid : n < 0xd800 ∨ 0xdfff < n) :
    isSecond (UInt8.ofNat (0xe0 + n / 4096)) (continuation (n / 64)) = true := by
  have lead : (UInt8.ofNat (0xe0 + n / 4096)).toNat = 0xe0 + n / 4096 := toNat_ofNat (by omega)
  simp only [isSecond, secondBounds, ← UInt8.toNat_inj, lead, within, toNat_continuation,
    UInt8.reduceToNat]
  split_ifs <;> simp only [Bool.and_eq_true, decide_eq_true_eq] <;> omega

/-- A lead byte of four bytes is followed by what no shorter encoding and nothing above U+10FFFF
needs. -/
theorem isSecond_four {n : Nat} (long : 0x10000 ≤ n) (valid : n < 0x110000) :
    isSecond (UInt8.ofNat (0xf0 + n / 262144)) (continuation (n / 4096)) = true := by
  have lead : (UInt8.ofNat (0xf0 + n / 262144)).toNat = 0xf0 + n / 262144 :=
    toNat_ofNat (by omega)
  simp only [isSecond, secondBounds, ← UInt8.toNat_inj, lead, within, toNat_continuation,
    UInt8.reduceToNat]
  split_ifs <;> simp only [Bool.and_eq_true, decide_eq_true_eq] <;> omega

section
variable {a b c d : UInt8}

theorem within_iff {low high : Nat} :
    within low high a = true ↔ low ≤ a.toNat ∧ a.toNat ≤ high := by
  simp [within]

theorem sequence_one (low : a.toNat < 0x80) (rest : List UInt8) :
    sequence a rest = (some (Char.ofNat a.toNat), rest) := by
  simp [sequence, low]

theorem sequence_two (lead : within 0xc2 0xdf a = true) (second : isContinuation b = true)
    (rest : List UInt8) :
    sequence a (b :: rest) = (some (Char.ofNat ((a.toNat - 0xc0) * 64 + bits b)), rest) := by
  obtain ⟨low, -⟩ := within_iff.1 lead
  have high : ¬ a.toNat < 0x80 := by omega
  simp [sequence, high, lead, second]

theorem sequence_three (lead : within 0xe0 0xef a = true) (second : isSecond a b = true)
    (third : isContinuation c = true) (rest : List UInt8) :
    sequence a (b :: c :: rest) =
      (some (Char.ofNat ((a.toNat - 0xe0) * 4096 + bits b * 64 + bits c)), rest) := by
  obtain ⟨low, -⟩ := within_iff.1 lead
  have high : ¬ a.toNat < 0x80 := by omega
  have above : ¬ within 0xc2 0xdf a = true := fun h => by
    have := (within_iff.1 h).2
    omega
  simp [sequence, high, above, lead, second, third]

theorem sequence_four (lead : within 0xf0 0xf4 a = true) (second : isSecond a b = true)
    (third : isContinuation c = true) (fourth : isContinuation d = true) (rest : List UInt8) :
    sequence a (b :: c :: d :: rest) =
      (some (Char.ofNat ((a.toNat - 0xf0) * 262144 + bits b * 4096 + bits c * 64 + bits d)),
        rest) := by
  obtain ⟨low, -⟩ := within_iff.1 lead
  have high : ¬ a.toNat < 0x80 := by omega
  have above : ¬ within 0xc2 0xdf a = true := fun h => by
    have := (within_iff.1 h).2
    omega
  have above' : ¬ within 0xe0 0xef a = true := fun h => by
    have := (within_iff.1 h).2
    omega
  simp [sequence, high, above, above', lead, second, third, fourth]

end

/-- Bytes of a character that is not one of the first 128 are not among those either. -/
theorem high_of_mem_encodeChar {c : Char} (high : 0x80 ≤ c.toNat) {b : UInt8}
    (hb : b ∈ encodeChar c) : 0x80 ≤ b.toNat := by
  have valid : c.toNat < 0xd800 ∨ 0xdfff < c.toNat ∧ c.toNat < 0x110000 := c.valid
  have more (n : Nat) : 0x80 ≤ (continuation n).toNat := by
    rw [toNat_continuation]
    omega
  unfold encodeChar at hb
  dsimp only at hb
  split_ifs at hb
  · omega
  · simp only [List.mem_cons, List.not_mem_nil, or_false] at hb
    rcases hb with rfl | rfl
    · rw [toNat_ofNat (by omega)]
      omega
    · exact more _
  · simp only [List.mem_cons, List.not_mem_nil, or_false] at hb
    rcases hb with rfl | rfl | rfl
    · rw [toNat_ofNat (by omega)]
      omega
    · exact more _
    · exact more _
  · simp only [List.mem_cons, List.not_mem_nil, or_false] at hb
    rcases hb with rfl | rfl | rfl | rfl
    · rw [toNat_ofNat (by omega)]
      omega
    · exact more _
    · exact more _
    · exact more _

theorem encodeChar_of_low {c : Char} (low : c.toNat < 0x80) :
    encodeChar c = [UInt8.ofNat c.toNat] := by
  simp [encodeChar, low]

theorem encode_append (s t : List Char) : encode (s ++ t) = encode s ++ encode t :=
  List.flatMap_append

theorem encode_cons (c : Char) (s : List Char) : encode (c :: s) = encodeChar c ++ encode s :=
  List.flatMap_cons

/-- The encoding of a character is one sequence, whatever follows it. -/
theorem sequence_encodeChar (c : Char) (rest : List UInt8) :
    ∃ lead more, encodeChar c = lead :: more ∧ sequence lead (more ++ rest) = (some c, rest) := by
  have scalar : c.toNat < 0xd800 ∨ 0xdfff < c.toNat ∧ c.toNat < 0x110000 := c.valid
  have back : Char.ofNat c.toNat = c := Char.ofNat_toNat c
  unfold encodeChar
  dsimp only
  split_ifs with one two three
  · refine ⟨_, _, rfl, ?_⟩
    have lead : (UInt8.ofNat c.toNat).toNat = c.toNat := toNat_ofNat (by omega)
    exact (sequence_one (by omega) rest).trans (by rw [lead, back])
  · refine ⟨_, _, rfl, ?_⟩
    have lead : (UInt8.ofNat (0xc0 + c.toNat / 64)).toNat = 0xc0 + c.toNat / 64 :=
      toNat_ofNat (by omega)
    have number : (0xc0 + c.toNat / 64 - 0xc0) * 64 + c.toNat % 64 = c.toNat := by omega
    refine (sequence_two (within_iff.2 (by omega)) (isContinuation_continuation _) rest).trans ?_
    rw [lead, bits_continuation, number, back]
  · refine ⟨_, _, rfl, ?_⟩
    have lead : (UInt8.ofNat (0xe0 + c.toNat / 4096)).toNat = 0xe0 + c.toNat / 4096 :=
      toNat_ofNat (by omega)
    have number : (0xe0 + c.toNat / 4096 - 0xe0) * 4096 + c.toNat / 64 % 64 * 64 + c.toNat % 64 =
        c.toNat := by omega
    refine (sequence_three (within_iff.2 (by omega))
      (isSecond_three (by omega) three (by omega)) (isContinuation_continuation _) rest).trans ?_
    rw [lead, bits_continuation, bits_continuation, number, back]
  · refine ⟨_, _, rfl, ?_⟩
    have lead : (UInt8.ofNat (0xf0 + c.toNat / 262144)).toNat = 0xf0 + c.toNat / 262144 :=
      toNat_ofNat (by omega)
    have number : (0xf0 + c.toNat / 262144 - 0xf0) * 262144 + c.toNat / 4096 % 64 * 4096 +
        c.toNat / 64 % 64 * 64 + c.toNat % 64 = c.toNat := by omega
    refine (sequence_four (within_iff.2 (by omega)) (isSecond_four (by omega) (by omega))
      (isContinuation_continuation _) (isContinuation_continuation _) rest).trans ?_
    rw [lead, bits_continuation, bits_continuation, bits_continuation, number, back]

theorem sequences_encodeChar_append (c : Char) (rest : List UInt8) :
    sequences (encodeChar c ++ rest) = some c :: sequences rest := by
  obtain ⟨lead, more, bytes, one⟩ := sequence_encodeChar c rest
  rw [bytes, List.cons_append, sequences_cons, one]

theorem sequences_encode (text : List Char) : sequences (encode text) = text.map some := by
  induction text with
  | nil => exact sequences_nil
  | cons c text ih =>
    rw [encode, List.flatMap_cons, sequences_encodeChar_append, ← encode, ih, List.map_cons]

/-- A text that has been encoded is valid, and comes back. -/
theorem decode?_encode (text : List Char) : decode? (encode text) = some text := by
  rw [decode?, sequences_encode]
  induction text with
  | nil => rfl
  | cons c text ih => simp [List.mapM_cons, ih]

end BuildPanel.Text
