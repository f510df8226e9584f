import BuildPanel.Proofs.Output.Captured

/-!
The lines of an output, seen on their own. An output can be cut after each of its newlines in one
way only: no piece is empty, every piece but the last one ends with a newline, and a newline stands
nowhere else. Decoding keeps all of this, since nothing but the byte itself decodes to a newline. So
what a consumer is told, however the output has been written and read, is the decoding of these
pieces one by one, and put together it is the decoding of the whole output.
-/

namespace BuildPanel

namespace Output

open Text (decodeLossy)

/-- How an output is cut after each newline. -/
inductive CutsInto : List UInt8 → List (List UInt8) → Prop where
  | nothing : CutsInto [] []
  /-- What is left behind the last newline. -/
  | rest {text : List UInt8} (some_ : text ≠ []) (open_ : newline ∉ text) : CutsInto text [text]
  | line {text output : List UInt8} {pieces : List (List UInt8)} (open_ : newline ∉ text)
      (later : CutsInto output pieces) :
      CutsInto (text ++ newline :: output) ((text ++ [newline]) :: pieces)

theorem cutsInto_lines (s : List UInt8) : CutsInto s (lines s) := by
  induction s with
  | nil => exact .nothing
  | cons b s ih =>
    by_cases ends : b = newline
    · subst ends
      rw [lines_newline]
      exact .line (List.not_mem_nil) ih
    · rw [lines_of_ne ends]
      generalize lines s = pieces at ih
      cases ih with
      | nothing => exact .rest (List.cons_ne_nil b []) (by simpa using Ne.symm ends)
      | rest some_ open_ => exact .rest (List.cons_ne_nil b s) (by simp [Ne.symm ends, open_])
      | @line text output pieces open_ later =>
        have open' : newline ∉ b :: text := by simp [Ne.symm ends, open_]
        exact .line open' later

theorem lines_of_open {text : List UInt8} (some_ : text ≠ []) (open_ : newline ∉ text) :
    lines text = [text] := by
  induction text with
  | nil => exact absurd rfl some_
  | cons b text ih =>
    obtain ⟨other, open_⟩ := List.ne_and_not_mem_of_not_mem_cons open_
    rw [lines_of_ne (Ne.symm other)]
    cases text with
    | nil => rfl
    | cons c text => rw [ih (List.cons_ne_nil c text) open_]

theorem lines_of_line {text : List UInt8} (open_ : newline ∉ text) (output : List UInt8) :
    lines (text ++ newline :: output) = (text ++ [newline]) :: lines output := by
  induction text with
  | nil => exact lines_newline output
  | cons b text ih =>
    obtain ⟨other, open_⟩ := List.ne_and_not_mem_of_not_mem_cons open_
    rw [List.cons_append, lines_of_ne (Ne.symm other), ih open_]
    rfl

namespace CutsInto

variable {output l : List UInt8} {pieces : List (List UInt8)}

/-- There is one way to cut an output. -/
theorem eq_lines (h : CutsInto output pieces) : pieces = lines output := by
  induction h with
  | nothing => rfl
  | rest some_ open_ => exact (lines_of_open some_ open_).symm
  | line open_ later ih => rw [lines_of_line open_, ih]

/-- A newline stands at the end of a piece, or it has none. -/
theorem piece (h : CutsInto output pieces) (hl : l ∈ pieces) :
    l ≠ [] ∧ ∃ text, newline ∉ text ∧ (l = text ∨ l = text ++ [newline]) := by
  induction h with
  | nothing => cases hl
  | @rest text some_ open_ =>
    rw [List.mem_singleton] at hl
    subst hl
    exact ⟨some_, l, open_, .inl rfl⟩
  | @line text output pieces open_ later ih =>
    rcases List.mem_cons.1 hl with rfl | further
    · exact ⟨by simp, text, open_, .inr rfl⟩
    · exact ih further

/-- Only the last piece may lack the newline at its end. -/
theorem ended (h : CutsInto output pieces) (hl : l ∈ pieces.dropLast) :
    ∃ text, l = text ++ [newline] := by
  induction h with
  | nothing => cases hl
  | rest some_ open_ => cases hl
  | @line text output pieces open_ later ih =>
    cases pieces with
    | nil => cases hl
    | cons next pieces =>
      rw [List.dropLast_cons_cons, List.mem_cons] at hl
      rcases hl with rfl | further
      · exact ⟨text, rfl⟩
      · exact ih further

end CutsInto

/-! ### Decoding the pieces -/

theorem newline_mem_decodeLossy {s : List UInt8} (h : '\n' ∈ decodeLossy s) : newline ∈ s := by
  obtain ⟨b, inside, value⟩ := Text.mem_of_mem_decodeLossy (by decide) (by decide) h
  have same : b = newline := UInt8.toNat_inj.1 value
  exact same ▸ inside

theorem decodeLossy_line (text : List UInt8) :
    decodeLossy (text ++ [newline]) = decodeLossy text ++ ['\n'] := by
  rw [Text.decodeLossy_append newline_low, Text.decodeLossy_cons newline_low, Text.decodeLossy_nil]
  rfl

theorem decodeLine_ne_empty {l : List UInt8} (h : l ≠ []) : decodeLine l ≠ "" := by
  cases l with
  | nil => exact absurd rfl h
  | cons b l =>
    intro empty
    have none_ := congrArg String.toList empty
    simp [decodeLine, Text.decodeLossy_eq_cons] at none_

/-- What the lines of an output are, as the texts that its consumer is told. -/
structure Legible (output : List UInt8) (texts : List String) : Prop where
  /-- They are the pieces that the output is cut into, each decoded on its own. -/
  decoded : ∃ pieces, CutsInto output pieces ∧ texts = pieces.map decodeLine
  nonempty : ∀ text ∈ texts, text ≠ ""
  /-- A newline stands at the end of a text, or nowhere. -/
  newline_last : ∀ text ∈ texts, '\n' ∉ text.toList.dropLast
  /-- Only the last text may lack it. -/
  ended : ∀ text ∈ texts.dropLast, text.toList.getLast? = some '\n'
  /-- Put together they are the output decoded as a whole. -/
  whole : String.join texts = String.ofList (decodeLossy output)

theorem CutsInto.legible {output : List UInt8} {pieces : List (List UInt8)}
    (h : CutsInto output pieces) : Legible output (pieces.map decodeLine) := by
  constructor
  case decoded => exact ⟨pieces, h, rfl⟩
  case nonempty =>
    intro text told
    obtain ⟨l, hl, rfl⟩ := List.mem_map.1 told
    exact decodeLine_ne_empty (h.piece hl).1
  case newline_last =>
    intro text told
    obtain ⟨l, hl, rfl⟩ := List.mem_map.1 told
    obtain ⟨-, text, open_, rfl | rfl⟩ := h.piece hl
    · intro inside
      rw [decodeLine, String.toList_ofList] at inside
      exact open_ (newline_mem_decodeLossy ((List.dropLast_sublist _).subset inside))
    · rw [decodeLine, String.toList_ofList, decodeLossy_line, List.dropLast_concat]
      exact fun inside => open_ (newline_mem_decodeLossy inside)
  case ended =>
    intro text told
    rw [← List.map_dropLast] at told
    obtain ⟨l, hl, rfl⟩ := List.mem_map.1 told
    obtain ⟨text, rfl⟩ := h.ended hl
    rw [decodeLine, String.toList_ofList, decodeLossy_line, List.getLast?_concat]
  case whole =>
    refine String.toList_injective ?_
    rw [String.toList_join, String.toList_ofList, ← flatMap_decodeLossy_lines, ← h.eq_lines,
      List.flatMap_map]
    simp only [decodeLine, String.toList_ofList]

/-- All that a consumer is told of a child: the texts of its lines, then its end. -/
def told (texts : List String) (status : ExitStatus) : List Event :=
  texts.map .line ++ [.exited status]

theorem told_decodeLine (output : List UInt8) (status : ExitStatus) :
    told ((lines output).map decodeLine) status = events output status := by
  rw [told, events, List.map_map]
  rfl

/-- Whatever a child writes, in whatever pieces it is written and read and whatever turns the parties
take, there are texts, the lines of its output cut after each newline and decoded one by one, of which
the consumer is told in their order, and then of the child's end: of the first of them at every
moment, and of all if it stays until the stream is over. What is collected of them is the whole output,
decoded as if it had never been cut. -/
theorem legible_of_run (output : List UInt8) (status : ExitStatus) :
    ∃ texts, Legible output texts ∧
      (∀ ms s, (Stream.start output status).run ms = some s →
        s.received <+: told texts status ∧
        (s.listening = true → s.isOver = true →
          s.received = told texts status ∧
          Captured.ofEvents s.received =
            ⟨status.succeeded, String.ofList (decodeLossy output)⟩)) ∧
      Captured.ofEvents (Stream.drain output status) =
        ⟨status.succeeded, String.ofList (decodeLossy output)⟩ := by
  have collected := Captured.ofEvents_drain output status
  refine ⟨_, (cutsInto_lines output).legible, ?_, collected⟩
  intro ms s hrun
  obtain ⟨done, carries⟩ := Stream.carries_run (Stream.Carries.start output status) hrun
  rw [told_decodeLine]
  refine ⟨carries.received_prefix, fun listens ended => ?_⟩
  have all := carries.received_of_isOver listens ended
  rw [Stream.drain_eq_events, ← all] at collected
  exact ⟨all, collected⟩

/-- A child breaks off a sequence in front of a newline, and another one at its end. What it writes
is read in two pieces, the first of which ends within a sequence. -/
def brokenOff : List Stream.Move :=
  [.write 4, .fetch 1, .fetch 3, .cut, .deliver, .receive, .close, .cut, .deliver, .receive, .finish,
    .exit, .reap, .announce, .receive]

theorem legible_brokenOff : ∃ s,
    (Stream.start [0xe2, 0x82, 10, 0xc3] (.code 0)).run brokenOff = some s ∧
    s.received = [.line "\uFFFD\n", .line "\uFFFD", .exited (.code 0)] ∧
    Captured.ofEvents s.received = ⟨true, "\uFFFD\n\uFFFD"⟩ := by
  have ends : ∃ s, (Stream.start [0xe2, 0x82, 10, 0xc3] (.code 0)).run brokenOff = some s ∧
      s.listening = true ∧ s.isOver = true := ⟨_, rfl, rfl, rfl⟩
  obtain ⟨s, hrun, listens, ended⟩ := ends
  obtain ⟨texts, legible, runs, -⟩ := legible_of_run [0xe2, 0x82, 10, 0xc3] (.code 0)
  obtain ⟨all, collected⟩ := (runs brokenOff s hrun).2 listens ended
  obtain ⟨pieces, cuts, rfl⟩ := legible.decoded
  obtain rfl : pieces = [[0xe2, 0x82, 10], [0xc3]] := cuts.eq_lines
  refine ⟨s, hrun, ?_, ?_⟩
  · rw [all]
    simp [told, decodeLine, decodeLossy, Text.sequences_cons, Text.sequence, Text.within,
      Text.isSecond, Text.secondBounds, Text.isContinuation]
  · rw [collected]
    simp [decodeLossy, Text.sequences_cons, Text.sequence, Text.within,
      Text.isSecond, Text.secondBounds, Text.isContinuation, ExitStatus.succeeded]

end Output

end BuildPanel
