import BuildPanel.Options
import BuildPanel.Text.Blank
import BuildPanel.Text.WordChar

/-!
Option declarations in a build description. A declaration is

    option(NAME "DESCRIPTION" TOKEN)

where `NAME` and `TOKEN` are words, the description is not empty and holds no double quote, and
white space (which may include line ends) separates the three parts. `TOKEN` switches the option on
iff it is `ON`. All other text is skipped.
-/

namespace BuildPanel

open Text

/-- The parts of one declaration as they stand in the text. -/
structure Declaration where
  name : List Char
  description : List Char
  token : List Char
  deriving DecidableEq, Repr

namespace Declaration

def keyword : List Char := "option(".toList

/-- Splits off the longest run of characters of a class, which must not be empty. -/
def run? (p : Char → Bool) (s : List Char) : Option (List Char × List Char) :=
  match s.takeWhile p with
  | [] => none
  | taken => some (taken, s.dropWhile p)

def strip? : List Char → List Char → Option (List Char)
  | [], s => some s
  | k :: ks, c :: s => if k = c then strip? ks s else none
  | _ :: _, [] => none

/-- The declaration that a text begins with, and the text after it. -/
def start? (s : List Char) : Option (Declaration × List Char) := do
  let s ← strip? keyword s
  let (name, s) ← run? isWord s
  let (_, s) ← run? isBlank s
  let s ← strip? ['"'] s
  let (description, s) ← run? (· ≠ '"') s
  let s ← strip? ['"'] s
  let (_, s) ← run? isBlank s
  let (token, s) ← run? isWord s
  let s ← strip? [')'] s
  return (⟨name, description, token⟩, s)

theorem length_of_strip? {k s r : List Char} (h : strip? k s = some r) :
    s.length = k.length + r.length := by
  induction k generalizing s with
  | nil => simp [strip?] at h; simp [h]
  | cons a k ih =>
    cases s with
    | nil => simp [strip?] at h
    | cons c s =>
      simp only [strip?] at h
      split at h
      · simp [ih h]; omega
      · simp at h

theorem length_of_run? {p : Char → Bool} {s t r : List Char} (h : run? p s = some (t, r)) :
    r.length ≤ s.length := by
  unfold run? at h
  split at h
  · simp at h
  · simp only [Option.some.injEq, Prod.mk.injEq] at h
    rw [← h.2]
    exact (List.dropWhile_sublist p).length_le

/-- A declaration takes up some of the text. -/
theorem length_of_start? {s r : List Char} {d : Declaration} (h : start? s = some (d, r)) :
    r.length < s.length := by
  simp only [start?, Option.bind_eq_bind, Option.bind_eq_some_iff, Option.pure_def,
    Option.some.injEq, Prod.mk.injEq, Prod.exists] at h
  obtain ⟨s1, h1, n, s2, h2, _, s3, h3, s4, h4, d', s5, h5, s6, h6, _, s7, h7, t, s8, h8, s9, h9,
    _, rfl⟩ := h
  have l1 := length_of_strip? h1
  have l2 := length_of_run? h2
  have l3 := length_of_run? h3
  have l4 := length_of_strip? h4
  have l5 := length_of_run? h5
  have l6 := length_of_strip? h6
  have l7 := length_of_run? h7
  have l8 := length_of_run? h8
  have l9 := length_of_strip? h9
  have : keyword.length = 7 := rfl
  omega

/-- All declarations of a text from left to right: a declaration at the earliest position, then
those of the text after it. -/
def scan (s : List Char) : List Declaration :=
  match _h : start? s with
  | some (d, rest) => d :: scan rest
  | none =>
    match s with
    | [] => []
    | _ :: tail => scan tail
termination_by s.length
decreasing_by
  · exact length_of_start? _h
  · simp

def member (d : Declaration) : String × OptionEntry :=
  (String.ofList d.name, ⟨String.ofList d.description, d.token = "ON".toList⟩)

end Declaration

/-- The options declared in a text. A name declared again keeps its place and takes the later
description and value. -/
def OptionSet.scan (text : String) : OptionSet :=
  .ofList ((Declaration.scan text.toList).map Declaration.member)

end BuildPanel
