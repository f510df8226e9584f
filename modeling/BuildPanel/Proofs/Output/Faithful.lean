import BuildPanel.Proofs.Output.Carries

/-!
A child's output on its way to the consumer, whatever the four parties do and in whatever order.
What arrives is what has been written, in its order.

No party waits for one that is gone: as long as the stream is not finished, the reader or the
supervisor can move, or else the child is the one to move, or a consumer that is still there faces
a full queue. Every move uses up some of a finite supply, and so every run comes to an end.
-/

namespace BuildPanel

namespace Output

namespace Stream

variable {s s' : Stream} {m : Move}

/-! ### No move waits for nobody -/

/-- A party can move. -/
def CanMove (s : Stream) (party : Party) : Prop :=
  ∃ m : Move, m.party = party ∧ (s.step m).isSome

/-- A consumer that is still there faces a full queue. -/
def Crowded (s : Stream) : Prop :=
  s.listening = true ∧ s.queue.length = queueLimit

theorem canMove_consumer_of_crowded (h : Crowded s) : s.CanMove .consumer := by
  obtain ⟨listens, full⟩ := h
  cases waiting : s.queue with
  | nil =>
    rw [waiting] at full
    cases full
  | cons e rest => exact ⟨.receive, rfl, by simp [Stream.step, listens, waiting]⟩

namespace Carries

variable {output : List UInt8} {status : ExitStatus} {done : List (List UInt8)}

/-- The reader, or else the supervisor, can put something into the queue unless it is full. -/
theorem hasRoom_or_crowded (h : Carries output status done s) (listens : s.listening = true) :
    s.hasRoom = true ∨ Crowded s := by
  rcases Nat.lt_or_eq_of_le h.bounded with room | full
  · exact .inl (decide_eq_true room)
  · exact .inr ⟨listens, full⟩

/-- Until it is finished a stream waits for the child or for a consumer that is still there, if the
reader and the supervisor cannot move. -/
theorem progress (h : Carries output status done s) (open_ : s.supervision ≠ .finished) :
    s.CanMove .reader ∨ s.CanMove .supervisor ∨ s.CanMove .child ∨ Crowded s := by
  by_cases announces : s.supervision = .announcing
  · cases listens : s.listening with
    | false => exact .inr (.inl ⟨.announce, rfl, by simp [Stream.step, announces, listens]⟩)
    | true =>
      rcases h.hasRoom_or_crowded listens with room | crowded
      · exact .inr (.inl ⟨.announce, rfl, by simp [Stream.step, announces, listens, room]⟩)
      · exact .inr (.inr (.inr crowded))
  have waits : s.supervision = .waiting := by
    cases phase : s.supervision with
    | waiting => rfl
    | announcing => exact absurd phase announces
    | finished => exact absurd phase open_
  cases offers : s.offered with
  | some line =>
    cases listens : s.listening with
    | false => exact .inl ⟨.deliver, rfl, by simp [Stream.step, offers, listens]⟩
    | true =>
      rcases h.hasRoom_or_crowded listens with room | crowded
      · exact .inl ⟨.deliver, rfl, by simp [Stream.step, offers, listens, room]⟩
      · exact .inr (.inr (.inr crowded))
  | none =>
    by_cases newline_ : newline ∈ s.held
    · exact .inl ⟨.cut, rfl, by simp [Stream.step, offers, hasLine, newline_]⟩
    cases pipe : s.pipe with
    | cons b more => exact .inl ⟨.fetch 1, rfl, by simp [Stream.step, offers, newline_, pipe]⟩
    | nil =>
      cases closed : s.closed with
      | false =>
        -- The reader waits for bytes, and the child has some to write or lets go of the pipe.
        cases unwritten : s.unwritten with
        | nil => exact .inr (.inr (.inl ⟨.close, rfl, by simp [Stream.step, closed, unwritten]⟩))
        | cons b more =>
          exact .inr (.inr (.inl ⟨.write 1, rfl, by
            simp [Stream.step, closed, unwritten, pipe, pipeLimit]⟩))
      | true =>
        by_cases held : s.held = []
        · cases readAll : s.readAll with
          | false =>
            exact .inl ⟨.finish, rfl, by simp [Stream.step, readAll, closed, pipe, held, offers]⟩
          | true =>
            cases exited : s.exited with
            | false =>
              exact .inr (.inr (.inl ⟨.exit, rfl, by simp [Stream.step, closed, exited]⟩))
            | true =>
              exact .inr (.inl ⟨.reap, rfl, by simp [Stream.step, waits, readAll, exited]⟩)
        · exact .inl ⟨.cut, rfl, by simp [Stream.step, offers, hasLine, closed, pipe, held]⟩

end Carries

/-! ### No run goes on for ever -/

/-- What is left of the supply that moves use up: a byte is written, fetched and cut, a line is
delivered and received, and each party has an end. -/
def supply (s : Stream) : Nat :=
  5 * s.unwritten.length + 4 * s.pipe.length + 3 * s.held.length +
    2 * s.offered.toList.length + s.queue.length +
    (if s.closed then 0 else 1) + (if s.exited then 0 else 1) + (if s.readAll then 0 else 1) +
    (match s.supervision with | .waiting => 3 | .announcing => 2 | .finished => 0) +
    (if s.listening then 1 else 0)

theorem supply_start (output : List UInt8) (status : ExitStatus) :
    (start output status).supply = moveLimit output + 1 := by
  simp [supply, start, moveLimit]

theorem supply_step (move : Step s m s') : s'.supply < s.supply := by
  cases move with
  | wrote holds some_ there =>
    simp only [supply, List.length_drop, List.length_append, List.length_take]
    omega
  | closed holds all => simp [supply, holds]
  | exited closed lives => simp [supply, lives]
  | fetched idle some_ there =>
    simp only [supply, List.length_drop, List.length_append, List.length_take]
    omega
  | cut idle line =>
    have some_ : s.held ≠ [] := by
      rcases line with newline | ⟨-, -, held⟩
      · exact List.ne_nil_of_mem newline
      · exact held
    have whole := congrArg List.length (cut_append s.held)
    have one := List.length_pos_iff.2 (cut_fst_ne_nil some_)
    rw [List.length_append] at whole
    cases keeps : s.discarding <;> simp [supply, idle] <;> omega
  | discarded offers gone => simp [supply, offers]
  | delivered offers listens room => simp [supply, offers]; omega
  | finished open_ closed read cut idle => simp [supply, open_]
  | reaped waits read exited => simp [supply, waits]
  | unheard announces gone => simp [supply, announces]
  | announced announces listens room => simp [supply, announces]; omega
  | received listens waiting => simp [supply, waiting]
  | left listens =>
    simp only [supply, listens, if_true, Bool.false_eq_true, if_false, List.length_nil]
    omega

theorem supply_run {ms : List Move} (hrun : s.run ms = some s') :
    ms.length + s'.supply ≤ s.supply := by
  induction ms generalizing s with
  | nil =>
    cases hrun
    simp
  | cons m ms ih =>
    obtain ⟨between, move, hrest⟩ := run_cases hrun
    have later := ih hrest
    have now := supply_step move
    rw [List.length_cons]
    omega

/-- How many bytes the reader takes out of the pipe with a move. -/
def Move.fetched : Move → Nat
  | .fetch n => n
  | _ => 0

/-- How many bytes the reader takes out of the pipe with some moves. -/
def fetched : List Move → Nat
  | [] => 0
  | m :: ms => m.fetched + fetched ms

theorem fetched_step (move : Step s m s') :
    m.fetched + (s'.pipe.length + s'.unwritten.length) = s.pipe.length + s.unwritten.length := by
  cases move with
  | wrote holds some_ there =>
    simp only [Move.fetched, List.length_append, List.length_take, List.length_drop]
    omega
  | fetched idle some_ there =>
    simp only [Move.fetched, List.length_drop]
    omega
  | _ => simp [Move.fetched]

theorem fetched_run {ms : List Move} (hrun : s.run ms = some s') :
    fetched ms + (s'.pipe.length + s'.unwritten.length) =
      s.pipe.length + s.unwritten.length := by
  induction ms generalizing s with
  | nil =>
    cases hrun
    simp [fetched]
  | cons m ms ih =>
    obtain ⟨between, move, hrest⟩ := run_cases hrun
    have later := ih hrest
    have now := fetched_step move
    rw [fetched]
    omega

/-! ### The contract -/

/-- What holds of a stream after some moves. -/
structure Faithful (output : List UInt8) (status : ExitStatus) (ms : List Move) (s : Stream) :
    Prop where
  /-- What has been received are the first of the events, in their order. -/
  received_first : s.received <+: events output status
  bounded : s.queue.length ≤ queueLimit
  /-- The end is received once, as the last event, and then the queue is closed and empty. -/
  ended : ∀ o, .exited o ∈ s.received → s.received = events output status ∧ s.isOver = true
  /-- A consumer that stays until the queue is closed and empty has received everything. -/
  complete : s.listening = true → s.isOver = true → s.received = events output status
  /-- At the end of file the reader has taken every byte of the output. -/
  readAll : s.readAll = true → fetched ms = output.length
  /-- Where neither the reader nor the supervisor can move, the child can or a consumer that is
  still there has to make room; or else all bytes have been read and the end has been told. -/
  unstuck : s.CanMove .reader ∨ s.CanMove .supervisor ∨ s.CanMove .child ∨
    Crowded s ∧ s.CanMove .consumer ∨ s.readAll = true ∧ s.supervision = .finished
  /-- After the consumer has turned away, the others go on until the reader has taken every byte and
  the supervisor has finished. -/
  heedless : s.listening = false →
    (∀ party, party ≠ .consumer → ¬ s.CanMove party) →
      fetched ms = output.length ∧ s.readAll = true ∧ s.supervision = .finished
  /-- No run takes more moves than the output allows. -/
  short : ms.length ≤ moveLimit output + 1

/-- Every run of the four parties is faithful to the child's output, whatever is written in whatever
pieces, and whenever the consumer turns away. -/
theorem faithful_of_run (output : List UInt8) (status : ExitStatus) (ms : List Move) (s : Stream)
    (hrun : (start output status).run ms = some s) : Faithful output status ms s := by
  obtain ⟨done, h⟩ := carries_run (Carries.start output status) hrun
  have closes : s.received = events output status → s.isOver = true := by
    intro all
    have finished := h.finished_of_received_eq all
    obtain ⟨readAll, -⟩ := h.supervised (by rw [finished]; decide)
    have empty : s.queue = [] := by
      cases listens : s.listening with
      | false => exact (h.alone listens).1
      | true =>
        obtain ⟨-, told⟩ := h.attended listens
        have rest := h.told_prefix.length_le
        rw [← told, all] at rest
        simp only [List.length_append] at rest
        exact List.length_eq_zero_iff.1 (by omega)
    simp [isOver, readAll, finished, empty]
  have readAll : s.readAll = true → fetched ms = output.length := by
    intro readAll
    obtain ⟨closed, pipe, -⟩ := h.read readAll
    have bytes := fetched_run hrun
    rw [pipe, h.wrote closed] at bytes
    simpa [start] using bytes
  refine ⟨h.received_prefix, h.bounded, ?_, ?_, readAll, ?_, ?_, ?_⟩
  · intro o told
    have all := h.received_eq told
    exact ⟨all, closes all⟩
  · intro listens isOver
    simp only [Stream.isOver, Bool.and_eq_true, decide_eq_true_eq, List.isEmpty_iff] at isOver
    obtain ⟨⟨readAll, finished⟩, empty⟩ := isOver
    obtain ⟨-, told⟩ := h.attended listens
    obtain ⟨closed, pipe, held, idle⟩ := h.read readAll
    rw [empty, idle] at told
    have all := h.events_eq
    rw [pipe, held, h.wrote closed] at all
    rw [all]
    simpa [endTold, finished, h.outcome, lineEvents, lines] using told
  · by_cases finished : s.supervision = .finished
    · obtain ⟨readAll, -⟩ := h.supervised (by rw [finished]; decide)
      exact .inr (.inr (.inr (.inr ⟨readAll, finished⟩)))
    · rcases h.progress finished with reader | supervisor | child | crowded
      · exact .inl reader
      · exact .inr (.inl supervisor)
      · exact .inr (.inr (.inl child))
      · exact .inr (.inr (.inr (.inl ⟨crowded, canMove_consumer_of_crowded crowded⟩)))
  · intro gone still
    have finished : s.supervision = .finished := by
      refine Classical.byContradiction fun open_ => ?_
      rcases h.progress open_ with reader | supervisor | child | ⟨listens, -⟩
      · exact still _ (by decide) reader
      · exact still _ (by decide) supervisor
      · exact still _ (by decide) child
      · rw [gone] at listens
        cases listens
    obtain ⟨read, -⟩ := h.supervised (by rw [finished]; decide)
    exact ⟨readAll read, read, finished⟩
  · have moves := supply_run hrun
    rw [supply_start] at moves
    omega

/-- A child that writes one line and is heard to its end. -/
def attentive : List Move :=
  [.write 2, .fetch 2, .cut, .deliver, .receive, .close, .finish, .exit, .reap, .announce, .receive]

theorem faithful_attentive : ∃ s, (start [104, 10] (.code 0)).run attentive = some s ∧
    Faithful [104, 10] (.code 0) attentive s :=
  ⟨_, rfl, faithful_of_run [104, 10] (.code 0) attentive _ rfl⟩

end Stream

end Output

end BuildPanel
