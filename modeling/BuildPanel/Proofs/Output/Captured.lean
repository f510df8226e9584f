import BuildPanel.Proofs.Output.Attentive
import BuildPanel.Proofs.Text.Lossy

/-!
What is collected of a child. Each line is decoded on its own, and a newline ends whatever sequence
was broken off in front of it: so the lines together are what the whole output decodes to. Success
is that of the child's end.
-/

namespace BuildPanel

namespace Output

open Text (decodeLossy)

theorem newline_low : newline.toNat < 0x80 := by decide

/-- What is left behind a line begins a line of its own: the line in front ends with a newline. -/
theorem cut_ends (s : List UInt8) : (cut s).2 = [] ∨ ∃ text, (cut s).1 = text ++ [newline] := by
  induction s with
  | nil => exact .inl rfl
  | cons b s ih =>
    by_cases ends : b = newline
    · subst ends
      rw [cut_newline]
      exact .inr ⟨[], rfl⟩
    · rw [cut_of_ne ends]
      rcases ih with none_ | ⟨text, line⟩
      · exact .inl none_
      · exact .inr ⟨b :: text, by rw [line]; rfl⟩

/-- The first line and what follows it are decoded apart. -/
theorem decodeLossy_cut (s : List UInt8) :
    decodeLossy s = decodeLossy (cut s).1 ++ decodeLossy (cut s).2 := by
  have whole := cut_append s
  rcases cut_ends s with none_ | ⟨text, line⟩
  · rw [none_, List.append_nil] at whole
    rw [none_, whole, Text.decodeLossy_nil, List.append_nil]
  · rw [line] at whole ⊢
    rw [List.append_assoc, List.singleton_append] at whole
    have decoded := congrArg decodeLossy whole
    rw [Text.decodeLossy_append newline_low, Text.decodeLossy_cons newline_low] at decoded
    rw [← decoded, Text.decodeLossy_append newline_low, Text.decodeLossy_cons newline_low,
      Text.decodeLossy_nil, List.append_assoc, List.singleton_append]

/-- The lines of an output, each decoded on its own, are the output decoded as a whole. -/
theorem flatMap_decodeLossy_lines (s : List UInt8) :
    (lines s).flatMap decodeLossy = decodeLossy s := by
  induction len : s.length using Nat.strongRecOn generalizing s with
  | _ n ih =>
    cases s with
    | nil => simp [lines]
    | cons b s =>
      have whole := congrArg List.length (cut_append (b :: s))
      have one := List.length_pos_iff.2 (cut_fst_ne_nil (List.cons_ne_nil b s))
      rw [List.length_append] at whole
      rw [lines_of_cut (List.cons_ne_nil b s), List.flatMap_cons, ih _ (by omega) _ rfl]
      exact (decodeLossy_cut (b :: s)).symm

namespace Captured

/-- Lines that are collected one after another. -/
theorem foldl_lineEvents {collect : Captured → Event → Captured}
    (line : ∀ c text, collect c (.line text) = { c with output := c.output ++ text })
    (ls : List (List UInt8)) (c : Captured) : (Stream.lineEvents ls).foldl collect c =
      { c with output := c.output ++ String.ofList (ls.flatMap decodeLossy) } := by
  induction ls generalizing c with
  | nil => simp [Stream.lineEvents]
  | cons l ls ih =>
    have next := ih (collect c (.line (decodeLine l)))
    rw [line] at next
    rw [Stream.lineEvents, List.map_cons, List.foldl_cons, line, List.flatMap_cons,
      String.ofList_append, ← String.append_assoc]
    exact next

/-- All that is told of a child is collected to its whole output, and to how it has ended. -/
theorem ofEvents_drain (output : List UInt8) (status : ExitStatus) :
    ofEvents (Stream.drain output status) =
      ⟨status.succeeded, String.ofList (decodeLossy output)⟩ := by
  rw [Stream.drain_eq_events, ofEvents, events, List.foldl_append]
  refine (congrArg (fun c : Captured => { c with success := status.succeeded })
    (foldl_lineEvents ?_ (lines output) ⟨false, ""⟩)).trans ?_
  · exact fun c text => rfl
  · rw [flatMap_decodeLossy_lines, String.empty_append]

end Captured

end Output

end BuildPanel
