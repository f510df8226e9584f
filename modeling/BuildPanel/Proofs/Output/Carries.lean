import BuildPanel.Proofs.Output.Moves

/-!
What a stream carries. At every moment what the consumer has taken, what waits in the queue and what
the reader offers are, one after another, the events of the lines that have been cut off; with the
bytes not yet cut off they are the whole output. So nothing is lost, doubled or reordered, and the
end is told last.
-/

namespace BuildPanel

namespace Output

/-! ### Cutting -/

/-- A line that is complete is cut off whatever comes after it. -/
theorem cut_append_of_newline {s : List UInt8} (complete : newline ∈ s) (more : List UInt8) :
    cut (s ++ more) = ((cut s).1, (cut s).2 ++ more) := by
  induction s with
  | nil => simp at complete
  | cons b s ih =>
    by_cases h : b = newline
    · subst h
      rw [List.cons_append, cut_newline, cut_newline]
    · rw [List.cons_append, cut_of_ne h, cut_of_ne h,
        ih (List.mem_of_ne_of_mem (Ne.symm h) complete)]

theorem lines_of_cut {s : List UInt8} (some_ : s ≠ []) :
    lines s = (cut s).1 :: lines (cut s).2 := by
  cases s with
  | nil => exact absurd rfl some_
  | cons b s => exact lines_cons b s

theorem cut_fst_ne_nil {s : List UInt8} (some_ : s ≠ []) : (cut s).1 ≠ [] := by
  cases s with
  | nil => exact absurd rfl some_
  | cons b s =>
    by_cases h : b = newline
    · subst h
      rw [cut_newline]
      exact List.cons_ne_nil _ _
    · rw [cut_of_ne h]
      exact List.cons_ne_nil _ _

namespace Stream

variable {s s' : Stream} {m : Move}

/-! ### What a stream carries -/

/-- The end of the child, once it has been told. -/
def endTold (s : Stream) : List Event :=
  if s.supervision = .finished then [.exited s.status] else []

/-- The events of lines. -/
def lineEvents (done : List (List UInt8)) : List Event :=
  done.map fun l => .line (decodeLine l)

/-- A stream under way that has cut off some lines of its output. -/
structure Carries (output : List UInt8) (status : ExitStatus) (done : List (List UInt8))
    (s : Stream) : Prop where
  outcome : s.status = status
  /-- The lines cut off, and those of the bytes that are left. -/
  cutOff : lines output = done ++ lines (s.held ++ s.pipe ++ s.unwritten)
  wrote : s.closed = true → s.unwritten = []
  closed : s.exited = true → s.closed = true
  read : s.readAll = true → s.closed = true ∧ s.pipe = [] ∧ s.held = [] ∧ s.offered = none
  supervised : s.supervision ≠ .waiting → s.readAll = true ∧ s.exited = true
  attended : s.listening = true → s.discarding = false ∧
    s.received ++ s.queue ++ s.offered.toList.map .line = lineEvents done ++ s.endTold
  alone : s.listening = false → s.queue = [] ∧ s.received <+: events output status ∧
    (s.received = events output status → s.supervision = .finished)
  bounded : s.queue.length ≤ queueLimit

namespace Carries

variable {output : List UInt8} {status : ExitStatus} {done : List (List UInt8)}

theorem start (output : List UInt8) (status : ExitStatus) :
    Carries output status [] (.start output status) where
  outcome := rfl
  cutOff := rfl
  wrote := nofun
  closed := nofun
  read := nofun
  supervised h := absurd rfl h
  attended _ := ⟨rfl, rfl⟩
  alone := nofun
  bounded := Nat.zero_le _

/-- As long as there are lines to be cut off, the end has not been told. -/
theorem endTold_eq_nil (h : Carries output status done s)
    (open_ : s.held ≠ [] ∨ s.offered ≠ none ∨ s.readAll = false) : s.endTold = [] := by
  refine if_neg fun finished => ?_
  obtain ⟨readAll, -⟩ := h.supervised (by rw [finished]; decide)
  obtain ⟨-, -, held, offered⟩ := h.read readAll
  rcases open_ with some_ | some_ | some_
  · exact some_ held
  · exact some_ offered
  · rw [readAll] at some_
    cases some_

/-- The events that a stream has told of and has yet to tell. -/
theorem events_eq (h : Carries output status done s) :
    events output status =
      lineEvents done ++ (lineEvents (lines (s.held ++ s.pipe ++ s.unwritten)) ++
        [.exited status]) := by
  simp [events, h.cutOff, lineEvents]

/-- Once the end has been told, all lines have been cut off. -/
theorem told_prefix (h : Carries output status done s) :
    lineEvents done ++ s.endTold <+: events output status := by
  rw [h.events_eq]
  by_cases finished : s.supervision = .finished
  · obtain ⟨readAll, -⟩ := h.supervised (by rw [finished]; decide)
    obtain ⟨closed, pipe, held, -⟩ := h.read readAll
    rw [endTold, if_pos finished, pipe, held, h.wrote closed, h.outcome]
    exact List.prefix_refl _
  · rw [endTold, if_neg finished, List.append_nil]
    exact List.prefix_append _ _

theorem received_prefix (h : Carries output status done s) :
    s.received <+: events output status := by
  cases listens : s.listening with
  | false => exact (h.alone listens).2.1
  | true =>
    obtain ⟨-, told⟩ := h.attended listens
    refine List.IsPrefix.trans ?_ h.told_prefix
    rw [← told, List.append_assoc]
    exact List.prefix_append _ _

theorem not_mem_lineEvents (o : ExitStatus) (done : List (List UInt8)) :
    .exited o ∉ lineEvents done := by
  simp [lineEvents]

/-- Once the consumer has been told of the end, it has been told of everything. -/
theorem received_eq (h : Carries output status done s) {o : ExitStatus}
    (told : .exited o ∈ s.received) : s.received = events output status := by
  obtain ⟨rest, whole⟩ := h.received_prefix
  rcases List.eq_nil_or_concat rest with nil | ⟨before, e, last⟩
  · rw [← whole, nil, List.append_nil]
  · -- A list in front of the last event holds lines only.
    rw [last, List.concat_eq_append, ← List.append_assoc, events] at whole
    obtain ⟨lines_, -⟩ := List.append_inj' whole rfl
    have inLines : .exited o ∈ s.received ++ before := List.mem_append_left _ told
    rw [lines_] at inLines
    exact absurd inLines (not_mem_lineEvents o _)

/-- The consumer is told of everything only after the supervisor has finished. -/
theorem finished_of_received_eq (h : Carries output status done s)
    (all : s.received = events output status) : s.supervision = .finished := by
  cases listens : s.listening with
  | false => exact (h.alone listens).2.2 all
  | true =>
    obtain ⟨-, told⟩ := h.attended listens
    by_cases finished : s.supervision = .finished
    · exact finished
    · have inTold : .exited status ∈ s.received ++ s.queue ++ s.offered.toList.map .line := by
        simp [all, events]
      rw [told, endTold, if_neg finished, List.append_nil] at inTold
      exact absurd inTold (not_mem_lineEvents status done)

/-- The reader cuts off one more line. -/
theorem cut (h : Carries output status done s) (idle : s.offered = none)
    (line : newline ∈ s.held ∨ s.closed = true ∧ s.pipe = [] ∧ s.held ≠ []) :
    Carries output status (done ++ [(Output.cut s.held).1])
      { s with
        held := (Output.cut s.held).2
        offered := if s.discarding then none else decodeLine (Output.cut s.held).1 } := by
  have some_ : s.held ≠ [] := by
    rcases line with newline | ⟨-, -, held⟩
    · exact List.ne_nil_of_mem newline
    · exact held
  have rest : Output.cut (s.held ++ s.pipe ++ s.unwritten) =
      ((Output.cut s.held).1, (Output.cut s.held).2 ++ s.pipe ++ s.unwritten) := by
    rcases line with newline | ⟨closed, pipe, -⟩
    · rw [List.append_assoc, cut_append_of_newline newline, List.append_assoc]
    · rw [pipe, h.wrote closed]
      simp
  refine { h with cutOff := ?_, read := ?_, attended := ?_ }
  · rw [h.cutOff, lines_of_cut (by simp [some_]), rest]
    simp
  · intro readAll
    exact absurd (h.read readAll).2.2.1 some_
  · intro listens
    obtain ⟨keeps, told⟩ := h.attended listens
    have open_ := h.endTold_eq_nil (.inl some_)
    refine ⟨keeps, ?_⟩
    rw [idle, open_] at told
    have still : endTold { s with
        held := (Output.cut s.held).2
        offered := if s.discarding then none else decodeLine (Output.cut s.held).1 } = [] := open_
    rw [still]
    simp only [keeps, Bool.false_eq_true, if_false, Option.toList_some, List.map_cons,
      List.map_nil, Option.toList_none, List.append_nil] at told ⊢
    simp [lineEvents, told]

/-- The supervisor tells the consumer of the end, for which the reader has offered all lines. -/
theorem announced (h : Carries output status done s) (announces : s.supervision = .announcing)
    (listens : s.listening = true) (room : s.queue.length < queueLimit) :
    Carries output status done
      { s with supervision := .finished, queue := s.queue ++ [.exited s.status] } := by
  have past := h.supervised (by rw [announces]; decide)
  refine { h with supervised := fun _ => past, attended := ?_, alone := ?_, bounded := ?_ }
  · intro _
    obtain ⟨keeps, told⟩ := h.attended listens
    obtain ⟨-, -, -, idle⟩ := h.read past.1
    refine ⟨keeps, ?_⟩
    rw [idle] at told
    simp only [endTold, announces, reduceCtorEq, if_false, Option.toList_none, List.map_nil,
      List.append_nil] at told
    simp [endTold, idle, ← told]
  · intro gone
    rw [listens] at gone
    cases gone
  · simp only [List.length_append, List.length_singleton]
    omega

/-- Every move keeps what a stream carries, and cuts off a line more if it cuts. -/
theorem step (h : Carries output status done s) (move : Step s m s') :
    ∃ done', Carries output status done' s' := by
  cases move with
  | @wrote n holds some_ there =>
    refine ⟨done, { h with cutOff := ?_, wrote := ?_, read := ?_ }⟩
    · rw [h.cutOff]
      simp
    · intro closed
      rw [holds] at closed
      cases closed
    · intro readAll
      obtain ⟨closed, -⟩ := h.read readAll
      rw [holds] at closed
      cases closed
  | closed holds all =>
    refine ⟨done, { h with wrote := fun _ => all, closed := fun _ => rfl, read := ?_ }⟩
    intro readAll
    exact ⟨rfl, (h.read readAll).2⟩
  | exited closed lives =>
    refine ⟨done, { h with closed := fun _ => closed, supervised := ?_ }⟩
    intro past
    exact ⟨(h.supervised past).1, rfl⟩
  | @fetched n idle some_ there =>
    refine ⟨done, { h with cutOff := ?_, read := ?_ }⟩
    · rw [h.cutOff]
      simp
    · intro readAll
      obtain ⟨-, pipe, -⟩ := h.read readAll
      rw [pipe] at there
      exact absurd some_ (by simpa using there)
  | cut idle line => exact ⟨_, h.cut idle line⟩
  | discarded offers gone =>
    refine ⟨done, { h with read := ?_, attended := ?_ }⟩
    · intro readAll
      obtain ⟨closed, pipe, held, -⟩ := h.read readAll
      exact ⟨closed, pipe, held, rfl⟩
    · intro listens
      rw [gone] at listens
      cases listens
  | @delivered line offers listens room =>
    refine ⟨done, { h with read := ?_, attended := ?_, alone := ?_, bounded := ?_ }⟩
    · intro readAll
      obtain ⟨closed, pipe, held, -⟩ := h.read readAll
      exact ⟨closed, pipe, held, rfl⟩
    · intro _
      obtain ⟨keeps, told⟩ := h.attended listens
      refine ⟨keeps, ?_⟩
      rw [offers] at told
      simpa [endTold] using told
    · intro gone
      rw [listens] at gone
      cases gone
    · simp only [List.length_append, List.length_singleton]
      omega
  | finished open_ closed read cut idle =>
    exact ⟨done, { h with
      read := fun _ => ⟨closed, read, cut, idle⟩
      supervised := fun past => ⟨rfl, (h.supervised past).2⟩ }⟩
  | reaped waits read exited =>
    refine ⟨done, { h with
      supervised := fun _ => ⟨read, exited⟩, attended := ?_, alone := ?_ }⟩
    · intro listens
      obtain ⟨keeps, told⟩ := h.attended listens
      refine ⟨keeps, ?_⟩
      simpa [endTold, waits] using told
    · intro gone
      obtain ⟨empty, received, finished⟩ := h.alone gone
      refine ⟨empty, received, fun all => ?_⟩
      have := finished all
      rw [waits] at this
      cases this
  | unheard announces gone =>
    refine ⟨done, { h with
      supervised := fun _ => h.supervised (by rw [announces]; decide)
      attended := ?_, alone := ?_ }⟩
    · intro listens
      rw [gone] at listens
      cases listens
    · intro _
      obtain ⟨empty, received, -⟩ := h.alone gone
      exact ⟨empty, received, fun _ => rfl⟩
  | announced announces listens room => exact ⟨done, h.announced announces listens room⟩
  | @received e rest listens waiting =>
    refine ⟨done, { h with attended := ?_, alone := ?_, bounded := ?_ }⟩
    · intro _
      obtain ⟨keeps, told⟩ := h.attended listens
      refine ⟨keeps, ?_⟩
      rw [waiting] at told
      simpa [endTold] using told
    · intro gone
      rw [listens] at gone
      cases gone
    · have := h.bounded
      rw [waiting, List.length_cons] at this
      exact Nat.le_of_succ_le this
  | left listens =>
    refine ⟨done, { h with attended := nofun, alone := ?_, bounded := Nat.zero_le _ }⟩
    intro _
    exact ⟨rfl, h.received_prefix, h.finished_of_received_eq⟩

/-- A consumer that has stayed until the stream is over has been told of everything. -/
theorem received_of_isOver (h : Carries output status done s) (listens : s.listening = true)
    (drained : s.isOver = true) : s.received = events output status := by
  simp only [Stream.isOver, Bool.and_eq_true, decide_eq_true_eq, List.isEmpty_iff] at drained
  obtain ⟨⟨readAll, finished⟩, empty⟩ := drained
  obtain ⟨-, told⟩ := h.attended listens
  obtain ⟨closed, pipe, held, idle⟩ := h.read readAll
  rw [empty, idle] at told
  have all := h.events_eq
  rw [pipe, held, h.wrote closed] at all
  rw [all]
  simpa [endTold, finished, h.outcome, lineEvents, lines] using told

end Carries

/-- Runs keep what a stream carries. -/
theorem carries_run {output : List UInt8} {status : ExitStatus} {done : List (List UInt8)}
    {ms : List Move} (h : Carries output status done s) (hrun : s.run ms = some s') :
    ∃ done', Carries output status done' s' := by
  induction ms generalizing s done with
  | nil =>
    cases hrun
    exact ⟨done, h⟩
  | cons m ms ih =>
    obtain ⟨between, move, hrest⟩ := run_cases hrun
    obtain ⟨done', h'⟩ := h.step move
    exact ih h' hrest

end Stream

end Output

end BuildPanel
