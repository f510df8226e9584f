import Mathlib.Data.List.Induction
import BuildPanel.Address
import BuildPanel.Proofs.Declaration.Grammar

/-!
Numbers as they stand in addresses. A number is read as the longest run of digits, so what is read
and what is left are determined by the text. In decimal digits a number has one spelling without
leading zeros.
-/

namespace BuildPanel

namespace Address

open Declaration (IsRun Stops)

/-- Whether a character is a digit of a base. -/
def isDigit (base : Nat) (c : Char) : Bool :=
  (digit? base c).isSome

/-- Digits of a base that stand for a number. -/
structure Numeral (base : Nat) (t : List Char) (n : Nat) : Prop where
  digits : IsRun (isDigit base) t
  value : valueOf base t = n

instance (base : Nat) (t : List Char) (n : Nat) : Decidable (Numeral base t n) :=
  decidable_of_iff (IsRun (isDigit base) t ∧ valueOf base t = n)
    ⟨fun h => ⟨h.1, h.2⟩, fun h => ⟨h.digits, h.value⟩⟩

/-- Digits begin with a zero only if there is no other digit. -/
def NoLeadingZero (t : List Char) : Prop :=
  t.head? = some '0' → t.length = 1

variable {base bound n : Nat} {longest : Option Nat} {zeros : Bool} {s t rest : List Char} {c : Char}

theorem takeWhile_run {p : Char → Bool} (run : IsRun p t) (stops : Stops p rest) :
    (t ++ rest).takeWhile p = t := by
  have found := run.run?_append stops
  unfold Declaration.run? at found
  split at found
  · cases found
  · exact congrArg Prod.fst (Option.some.inj found)

/-- No run stops where it begins. -/
theorem not_stops_append {p : Char → Bool} (run : IsRun p t) (rest : List Char) :
    ¬ Stops p (t ++ rest) := by
  intro stops
  cases t with
  | nil => exact run.ne_nil rfl
  | cons c t =>
    have other := stops c rfl
    rw [run.all c List.mem_cons_self] at other
    cases other

theorem number_eq (base bound : Nat) (longest : Option Nat) (zeros : Bool) (s : List Char) :
    number base longest zeros bound s =
      let t := s.takeWhile (isDigit base)
      if t = [] ∨ longest.any (· < t.length) ∨ bound ≤ valueOf base t then none
      else if !zeros && t.head? = some '0' && t.length ≠ 1 then none
      else some (valueOf base t, s.drop t.length) := rfl

/-- A number is read where its digits stand, as far as they go. -/
theorem number_eq_some_iff : number base longest zeros bound s = some (n, rest) ↔
    ∃ t, Numeral base t n ∧ Stops (isDigit base) rest ∧ s = t ++ rest ∧
      (∀ limit ∈ longest, t.length ≤ limit) ∧ (zeros = true ∨ NoLeadingZero t) ∧ n < bound := by
  constructor
  · intro h
    rw [number_eq] at h
    dsimp only at h
    have whole := List.takeWhile_append_dropWhile (p := isDigit base) (l := s)
    have stops : Stops (isDigit base) (s.dropWhile (isDigit base)) := by
      intro c first
      have := List.head?_dropWhile_not (isDigit base) s
      rw [first] at this
      simpa using this
    have all : ∀ c ∈ s.takeWhile (isDigit base), isDigit base c = true :=
      List.all_eq_true.1 List.all_takeWhile
    generalize s.takeWhile (isDigit base) = t at *
    generalize s.dropWhile (isDigit base) = left at *
    split at h
    · cases h
    · next fine =>
      obtain ⟨some_, short, small⟩ : t ≠ [] ∧ ¬ longest.any (· < t.length) ∧
          ¬ bound ≤ valueOf base t := by simpa only [not_or] using fine
      split at h
      · cases h
      · next noZero =>
        cases h
        subst whole
        refine ⟨t, ⟨⟨some_, all⟩, rfl⟩, ?_, ?_, ?_, ?_, by omega⟩
        · rw [List.drop_left]
          exact stops
        · rw [List.drop_left]
        · rintro limit ⟨⟩
          simpa using short
        · cases zeros with
          | true => exact .inl rfl
          | false => exact .inr fun zero => by simpa [zero] using noZero
  · rintro ⟨t, ⟨digits, rfl⟩, stops, rfl, short, noZero, small⟩
    have taken := takeWhile_run digits stops
    rw [number_eq, taken]
    dsimp only
    rw [if_neg, if_neg, List.drop_left]
    · rcases noZero with rfl | noZero
      · simp
      · simp only [Bool.and_eq_true, decide_eq_true_eq, not_and, Decidable.not_not]
        exact fun zero => noZero zero.2
    · rintro (none_ | long | large)
      · exact digits.ne_nil none_
      · cases longest with
        | none => cases long
        | some limit => exact absurd (short limit rfl) (by simpa using long)
      · omega

/-! ### Decimal digits -/

theorem digit?_of_isDigit (ten : 10 ≤ base) (digit : c.isDigit = true) :
    digit? base c = some (c.toNat - 48) := by
  have range : '0' ≤ c ∧ c ≤ '9' := by simpa [Char.isDigit, Char.le_def] using digit
  have high : c.toNat ≤ 57 := UInt32.le_iff_toNat_le.1 range.2
  have zero : '0'.toNat = 48 := rfl
  rw [digit?, if_pos range, zero]
  exact Option.filter_some_pos (by simpa using (by omega : c.toNat - 48 < base))

theorem isDigit_ten (c : Char) : isDigit 10 c = c.isDigit := by
  cases digit : c.isDigit with
  | true => simp [isDigit, digit?_of_isDigit (Nat.le_refl 10) digit]
  | false =>
    have outside : ¬ ('0' ≤ c ∧ c ≤ '9') := by simpa [Char.isDigit, Char.le_def] using digit
    rw [isDigit, digit?, if_neg outside]
    split
    · simp
    · split <;> simp

/-- Digits to which another one is joined. -/
theorem valueOf_concat (t : List Char) (c : Char) :
    valueOf base (t ++ [c]) = valueOf base t * base + (digit? base c).getD 0 := by
  rw [valueOf, List.foldl_append]
  rfl

theorem valueOf_toDigits (n : Nat) : valueOf 10 (Nat.toDigits 10 n) = n := by
  induction n using Nat.strongRecOn with
  | _ n ih =>
    have digit (d : Nat) (small : d < 10) : (digit? 10 d.digitChar).getD 0 = d := by
      decide +revert
    by_cases small : n < 10
    · rw [Nat.toDigits_of_lt_base small, ← List.nil_append [_], valueOf_concat, digit n small]
      exact (congrArg (· + n) (Nat.zero_mul 10)).trans (Nat.zero_add n)
    · have parts : 10 * (n / 10) + n % 10 = n := Nat.div_add_mod n 10
      have last : n % 10 < 10 := Nat.mod_lt n (by omega)
      have split_ := Nat.toDigits_append_toDigits (b := 10) (by omega) (by omega : 0 < n / 10) last
      rw [parts, Nat.toDigits_of_lt_base last] at split_
      rw [← split_, valueOf_concat, ih (n / 10) (by omega), digit _ last]
      omega

theorem numeral_toDigits (n : Nat) : Numeral 10 (Nat.toDigits 10 n) n where
  digits := by
    refine ⟨Nat.toDigits_ne_nil, fun c inside => ?_⟩
    rw [isDigit_ten]
    exact Nat.isDigit_of_mem_toDigits (by omega) (by omega) inside
  value := valueOf_toDigits n

/-- A digit is printed for its value. -/
theorem toDigits_of_isDigit (digit : c.isDigit = true) :
    c.toNat - 48 < 10 ∧ Nat.toDigits 10 (c.toNat - 48) = [c] := by
  have range : '0' ≤ c ∧ c ≤ '9' := by simpa [Char.isDigit, Char.le_def] using digit
  have low : 48 ≤ c.toNat := UInt32.le_iff_toNat_le.1 range.1
  have high : c.toNat ≤ 57 := UInt32.le_iff_toNat_le.1 range.2
  have same : (c.toNat - 48).digitChar = c := by
    apply Char.toNat_inj.1
    rw [Nat.toNat_digitChar_of_lt_ten (by omega)]
    omega
  refine ⟨by omega, ?_⟩
  rw [Nat.toDigits_of_lt_base (by omega), same]

/-- Digits that do not begin with a zero are those of their value. The induction takes the digits
from the last to the first, since this is how they are printed. -/
theorem eq_toDigits_of_head (digits : IsRun (isDigit 10) t) (head : t.head? ≠ some '0') :
    0 < valueOf 10 t ∧ t = Nat.toDigits 10 (valueOf 10 t) := by
  induction t using List.reverseRecOn with
  | nil => exact absurd rfl digits.ne_nil
  | append_singleton t c ih =>
    have digit : c.isDigit = true := by
      rw [← isDigit_ten]
      exact digits.all c (List.mem_append_right t List.mem_cons_self)
    obtain ⟨small, last⟩ := toDigits_of_isDigit digit
    have value := @valueOf_concat 10 t c
    rw [digit?_of_isDigit (Nat.le_refl 10) digit, Option.getD_some] at value
    by_cases single : t = []
    · subst single
      have nothing : valueOf 10 [] = 0 := rfl
      rw [nothing, Nat.zero_mul, Nat.zero_add] at value
      rw [value, last]
      refine ⟨Nat.pos_of_ne_zero fun zero => head ?_, rfl⟩
      rw [zero] at last
      rw [List.nil_append, ← last]
      rfl
    · have first : t.head? ≠ some '0' := by
        cases t with
        | nil => exact absurd rfl single
        | cons d t => exact head
      have before : IsRun (isDigit 10) t :=
        ⟨single, fun c inside => digits.all c (List.mem_append_left _ inside)⟩
      obtain ⟨positive, spelled⟩ := ih before first
      rw [value, Nat.mul_comm, ← Nat.toDigits_append_toDigits (by omega) positive small, ← spelled,
        last]
      exact ⟨by omega, rfl⟩

/-- A number has one spelling without leading zeros. -/
theorem eq_toDigits_of_noLeadingZero (numeral : Numeral 10 t n) (noZero : NoLeadingZero t) :
    t = Nat.toDigits 10 n := by
  obtain ⟨digits, rfl⟩ := numeral
  by_cases zero : t.head? = some '0'
  · obtain ⟨c, rfl⟩ := List.length_eq_one_iff.1 (noZero zero)
    cases zero
    rfl
  · exact (eq_toDigits_of_head digits zero).2

end Address

end BuildPanel
