import Mathlib.Tactic.SplitIfs
import BuildPanel.Proofs.Text.Utf8

/-!
Where broken sequences end. A byte below 0x80 begins a sequence wherever it stands, so that a byte
string may be cut in front of one, and what is in front of the cut is decoded as if nothing followed
it.
-/

namespace BuildPanel.Text

variable {b : UInt8}

theorem isContinuation_of_low (low : b.toNat < 0x80) : isContinuation b = false := by
  simp [isContinuation, within]
  omega

theorem isSecond_of_low (low : b.toNat < 0x80) (a : UInt8) : isSecond a b = false := by
  have bounds : 0x80 ≤ (secondBounds a).1 := by
    unfold secondBounds
    split_ifs <;> decide
  simp [isSecond, within]
  omega

/-- A low byte is no part of a sequence that begins in front of it. -/
theorem sequence_append (low : b.toNat < 0x80) (a : UInt8) (rest t : List UInt8) :
    sequence a (rest ++ b :: t) = ((sequence a rest).1, (sequence a rest).2 ++ b :: t) := by
  have continues := isContinuation_of_low low
  have second := isSecond_of_low low a
  dsimp only [sequence]
  split_ifs with one two three four
  · rfl
  · cases rest with
    | nil => simp [continues]
    | cons c rest =>
      simp only [List.cons_append]
      split_ifs <;> rfl
  · rcases rest with _ | ⟨c, _ | ⟨d, rest⟩⟩
    · cases t <;> simp [second]
    · simp only [List.cons_append, List.nil_append, continues]
      cases isSecond a c <;> rfl
    · simp only [List.cons_append]
      split_ifs <;> rfl
  · rcases rest with _ | ⟨c, _ | ⟨d, _ | ⟨e, rest⟩⟩⟩
    · rcases t with _ | ⟨t₁, _ | ⟨t₂, t⟩⟩ <;> simp [second]
    · cases t <;> simp only [List.cons_append, List.nil_append, continues] <;>
        cases isSecond a c <;> rfl
    · simp only [List.cons_append, List.nil_append, continues]
      cases isSecond a c <;> cases isContinuation d <;> rfl
    · simp only [List.cons_append]
      split_ifs <;> rfl
  · rfl

/-- The sequences of a byte string that is cut in front of a low byte. -/
theorem sequences_append (low : b.toNat < 0x80) (s t : List UInt8) :
    sequences (s ++ b :: t) = sequences s ++ sequences (b :: t) := by
  induction len : s.length using Nat.strongRecOn generalizing s with
  | _ n ih =>
    cases s with
    | nil => simp
    | cons a rest =>
      have shorter : (sequence a rest).2.length < n := by
        rw [← len, List.length_cons]
        exact Nat.lt_succ_of_le (length_sequence_le a rest)
      rw [List.cons_append, sequences_cons, sequences_cons, sequence_append low,
        ih _ shorter _ rfl]
      rfl

@[simp]
theorem decodeLossy_nil : decodeLossy [] = [] := by
  rw [decodeLossy, sequences_nil]
  rfl

theorem decodeLossy_append (low : b.toNat < 0x80) (s t : List UInt8) :
    decodeLossy (s ++ b :: t) = decodeLossy s ++ decodeLossy (b :: t) := by
  rw [decodeLossy, sequences_append low, List.map_append]
  rfl

/-- A low byte is a character of its own. -/
theorem decodeLossy_cons (low : b.toNat < 0x80) (t : List UInt8) :
    decodeLossy (b :: t) = Char.ofNat b.toNat :: decodeLossy t := by
  rw [decodeLossy, sequences_cons, sequence_one low]
  rfl

/-! ### Low characters -/

section Low

variable {a : UInt8} {c : Char} {s rest : List UInt8}

/-- A character other than NUL has one number. -/
theorem toNat_of_ofNat {n : Nat} (given : 0 < c.toNat) (h : Char.ofNat n = c) : n = c.toNat := by
  subst h
  by_cases valid : n.isValidChar
  · have numbered : Char.ofNat n = Char.ofNatAux n valid := dif_pos valid
    rw [numbered]
    rfl
  · have nul : Char.ofNat n = '\x00' := dif_neg valid
    rw [nul] at given
    exact absurd given (by decide)

/-- The least lead bytes of three and of four bytes are followed by no low second byte. -/
theorem bits_of_isSecond {b : UInt8} (second : isSecond a b = true) :
    (a.toNat = 0xe0 → 0x20 ≤ bits b) ∧ (a.toNat = 0xf0 → 0x10 ≤ bits b) := by
  unfold isSecond secondBounds at second
  simp only [← UInt8.toNat_inj, UInt8.reduceToNat] at second
  unfold bits
  constructor
  · intro lead
    rw [if_pos lead] at second
    have := within_iff.1 second
    omega
  · intro lead
    simp only [lead, Nat.reduceEqDiff, if_false, if_true] at second
    have := within_iff.1 second
    omega

/-- Only a byte below 0x80 is read as a character below U+0080. -/
theorem toNat_of_sequence (given : 0 < c.toNat) (low : c.toNat < 0x80)
    (h : (sequence a rest).1 = some c) : a.toNat = c.toNat := by
  dsimp only [sequence] at h
  split_ifs at h with one two three four
  · exact toNat_of_ofNat given (Option.some.inj h)
  · obtain ⟨least, -⟩ := within_iff.1 two
    split at h
    · split_ifs at h
      have := toNat_of_ofNat given (Option.some.inj h)
      omega
    · cases h
  · obtain ⟨least, -⟩ := within_iff.1 three
    split at h
    · split_ifs at h with refused broken
      have value := toNat_of_ofNat given (Option.some.inj h)
      have second := bits_of_isSecond (by simpa using refused)
      omega
    · split_ifs at h
    · cases h
  · obtain ⟨least, -⟩ := within_iff.1 four
    split at h
    · split_ifs at h with refused broken broken'
      have value := toNat_of_ofNat given (Option.some.inj h)
      have second := bits_of_isSecond (by simpa using refused)
      omega
    · split_ifs at h
    · split_ifs at h
    · cases h

theorem sequence_suffix (a : UInt8) (rest : List UInt8) : (sequence a rest).2 <:+ rest := by
  unfold sequence
  repeat' split
  all_goals simp [List.suffix_cons_iff]

theorem decodeLossy_eq_cons (a : UInt8) (rest : List UInt8) : decodeLossy (a :: rest) =
    (sequence a rest).1.getD '\uFFFD' :: decodeLossy (sequence a rest).2 := by
  rw [decodeLossy, sequences_cons]
  rfl

/-- A low character comes from a byte of its own. -/
theorem mem_of_mem_decodeLossy (given : 0 < c.toNat) (low : c.toNat < 0x80)
    (h : c ∈ decodeLossy s) : ∃ b ∈ s, b.toNat = c.toNat := by
  induction len : s.length using Nat.strongRecOn generalizing s with
  | _ n ih =>
    cases s with
    | nil => simp at h
    | cons a rest =>
      rw [decodeLossy_eq_cons, List.mem_cons] at h
      rcases h with first | later
      · cases read : (sequence a rest).1 with
        | none =>
          rw [read] at first
          subst first
          exact absurd low (by decide)
        | some found =>
          rw [read, Option.getD_some] at first
          subst first
          exact ⟨a, List.mem_cons_self, toNat_of_sequence given low read⟩
      · have shorter := length_sequence_le a rest
        obtain ⟨b, inside, value⟩ := ih _ (by simp only [← len, List.length_cons]; omega) later rfl
        exact ⟨b, List.mem_cons_of_mem a ((sequence_suffix a rest).subset inside), value⟩

end Low

end BuildPanel.Text
