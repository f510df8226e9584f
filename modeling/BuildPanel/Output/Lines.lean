import BuildPanel.Process.Course
import BuildPanel.Text.Utf8

/-!
A child's output, cut into lines. A line ends after a newline byte or with the output; each line is
decoded on its own, and broken UTF-8 is replaced.

The main statement is that cutting loses nothing: the lines, one after another, are the output.
-/

namespace BuildPanel

namespace Output

def newline : UInt8 := 10

/-- The first line of bytes that are not empty, and the rest. -/
def cut (s : List UInt8) : List UInt8 × List UInt8 :=
  let text := s.takeWhile (· ≠ newline)
  match s.drop text.length with
  | b :: rest => (text ++ [b], rest)
  | [] => (text, [])

theorem cut_append (s : List UInt8) : (cut s).1 ++ (cut s).2 = s := by
  have h : s.takeWhile (· ≠ newline) = s.take (s.takeWhile (· ≠ newline)).length :=
    List.prefix_iff_eq_take.1 <| List.takeWhile_prefix _
  simp only [cut]
  split
  · rename_i b rest eq
    rw [List.append_assoc, List.singleton_append, ← eq]
    conv => lhs; lhs; rw [h]
    exact List.take_append_drop _ _
  · rename_i eq
    rw [List.append_nil]
    conv => lhs; rw [h]
    have := List.take_append_drop (s.takeWhile (· ≠ newline)).length s
    rw [eq, List.append_nil] at this
    exact this

/-- The lines of an output, each with its line end. -/
def lines : List UInt8 → List (List UInt8)
  | [] => []
  | b :: s =>
    if b = newline then [b] :: lines s
    else
      match lines s with
      | [] => [[b]]
      | line :: rest => (b :: line) :: rest

theorem lines_newline (s : List UInt8) : lines (newline :: s) = [newline] :: lines s := by
  rw [lines, if_pos rfl]

theorem lines_of_ne {b : UInt8} (h : b ≠ newline) (s : List UInt8) :
    lines (b :: s) =
      match lines s with
      | [] => [[b]]
      | line :: rest => (b :: line) :: rest := by
  rw [lines, if_neg h]

theorem flatten_lines (s : List UInt8) : (lines s).flatten = s := by
  induction s with
  | nil => rfl
  | cons b s ih =>
    by_cases h : b = newline
    · subst h
      rw [lines_newline, List.flatten_cons, ih]
      rfl
    · rw [lines_of_ne h]
      split
      · rename_i none
        rw [none] at ih
        rw [← ih]
        rfl
      · rename_i line rest some
        rw [some] at ih
        rw [← ih]
        rfl

theorem cut_newline (s : List UInt8) : cut (newline :: s) = ([newline], s) := by
  simp [cut]

theorem cut_of_ne {b : UInt8} (h : b ≠ newline) (s : List UInt8) :
    cut (b :: s) = (b :: (cut s).1, (cut s).2) := by
  simp only [cut, List.takeWhile_cons, ne_eq, h, not_false_eq_true, decide_true, if_true,
    List.length_cons, List.drop_succ_cons]
  split <;> rfl

/-- Cutting off a line gives the first of the lines and leaves the others. -/
theorem lines_cons (b : UInt8) (s : List UInt8) :
    lines (b :: s) = (cut (b :: s)).1 :: lines (cut (b :: s)).2 := by
  induction s generalizing b with
  | nil =>
    by_cases h : b = newline
    · subst h
      rw [lines_newline, cut_newline]
    · rw [lines_of_ne h, cut_of_ne h]
      rfl
  | cons c s ih =>
    by_cases h : b = newline
    · subst h
      rw [lines_newline, cut_newline]
    · rw [lines_of_ne h, cut_of_ne h, ih c]

def decodeLine (line : List UInt8) : String :=
  String.ofList (Text.decodeLossy line)

/-- What the consumer of a child's output is told. -/
inductive Event where
  | line (text : String)
  | exited (status : ExitStatus)
  deriving DecidableEq, Repr

/-- All that is told of a child: its lines in order, then its end. -/
def events (output : List UInt8) (status : ExitStatus) : List Event :=
  (lines output).map (fun l => .line (decodeLine l)) ++ [.exited status]

end Output

end BuildPanel
