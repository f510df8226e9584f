import BuildPanel.Proofs.Output.Faithful

/-!
A consumer that takes every event at once. The order in which such a consumer meets the events
leaves nothing undone: whatever move some party can make, one of the moves that are tried can be
made too, and there are tries enough for all of them. So the consumer is told of everything.
-/

namespace BuildPanel

namespace Output

namespace Stream

variable {s s' : Stream} {output : List UInt8} {status : ExitStatus} {done : List (List UInt8)}


/-- If a party other than the consumer can move, one of the moves that are tried can be made. -/
theorem exists_eager {party : Party} (own : party ≠ .consumer) (h : s.CanMove party) :
    ∃ move ∈ eagerMoves, (move s).party ≠ .consumer ∧ (s.step (move s)).isSome := by
  obtain ⟨m, rfl, may⟩ := h
  obtain ⟨s', moved⟩ := Option.isSome_iff_exists.1 may
  cases m with
  | write n =>
    refine ⟨fun s => .write (min s.unwritten.length (pipeLimit - s.pipe.length)),
      by simp [eagerMoves], own, ?_⟩
    -- There is something to write and room for it, if only for less.
    simp only [Stream.step] at moved ⊢
    split at moved
    · next holds =>
      simp only [Bool.and_eq_true, decide_eq_true_eq] at holds
      obtain ⟨⟨⟨closed, some_⟩, there⟩, room⟩ := holds
      have fits : 0 < min s.unwritten.length (pipeLimit - s.pipe.length) ∧
          min s.unwritten.length (pipeLimit - s.pipe.length) ≤ s.unwritten.length ∧
          s.pipe.length + min s.unwritten.length (pipeLimit - s.pipe.length) ≤ pipeLimit := by
        omega
      simp [closed, fits.1, fits.2]
    · cases moved
  | fetch n =>
    refine ⟨fun s => .fetch s.pipe.length, by simp [eagerMoves], own, ?_⟩
    simp only [Stream.step] at moved ⊢
    split at moved
    · next holds =>
      simp only [Bool.and_eq_true, decide_eq_true_eq] at holds
      obtain ⟨⟨⟨idle, open_⟩, some_⟩, there⟩ := holds
      have more : 0 < s.pipe.length := by omega
      simp only [idle, open_, more, Nat.le_refl, decide_true, Bool.and_self, if_true,
        Option.isSome_some]
    · cases moved
  | close => exact ⟨fun _ => .close, by simp [eagerMoves], own, may⟩
  | exit => exact ⟨fun _ => .exit, by simp [eagerMoves], own, may⟩
  | cut => exact ⟨fun _ => .cut, by simp [eagerMoves], own, may⟩
  | deliver => exact ⟨fun _ => .deliver, by simp [eagerMoves], own, may⟩
  | finish => exact ⟨fun _ => .finish, by simp [eagerMoves], own, may⟩
  | reap => exact ⟨fun _ => .reap, by simp [eagerMoves], own, may⟩
  | announce => exact ⟨fun _ => .announce, by simp [eagerMoves], own, may⟩
  | receive => exact absurd rfl own
  | leave => exact absurd rfl own

/-- None of the moves that are tried turns the consumer away. -/
theorem listening_of_eager {move : Stream → Move} (tried : move ∈ eagerMoves)
    (step : Step s (move s) s') : s'.listening = s.listening := by
  have stays : move s ≠ .leave := by
    simp only [eagerMoves, List.mem_cons, List.not_mem_nil, or_false] at tried
    rcases tried with rfl | rfl | rfl | rfl | rfl | rfl | rfl | rfl | rfl | rfl <;> nofun
  generalize move s = m at step stays
  cases step with
  | left listens => exact absurd rfl stays
  | _ => rfl

/-- Where none of the moves that are tried can be made, the stream is over. -/
theorem Carries.isOver_of_still (h : Carries output status done s) (listens : s.listening = true)
    (still : ∀ move ∈ eagerMoves, s.step (move s) = none) : s.isOver = true := by
  have none_ {party : Party} (own : party ≠ .consumer) : ¬ s.CanMove party := by
    intro can
    obtain ⟨move, tried, -, may⟩ := exists_eager own can
    rw [still move tried] at may
    cases may
  have empty : s.queue = [] := by
    have untaken := still (fun _ => .receive) (by simp [eagerMoves])
    cases waiting : s.queue with
    | nil => rfl
    | cons e rest => simp [Stream.step, listens, waiting] at untaken
  have finished : s.supervision = .finished := by
    refine Classical.byContradiction fun open_ => ?_
    rcases h.progress open_ with reader | supervisor | child | ⟨-, full⟩
    · exact none_ (by decide) reader
    · exact none_ (by decide) supervisor
    · exact none_ (by decide) child
    · rw [empty] at full
      cases full
  obtain ⟨readAll, -⟩ := h.supervised (by rw [finished]; decide)
  simp [isOver, readAll, finished, empty]

/-- What is kept for the consumer is left to the last. -/
theorem isOver_of_supply (listens : s.listening = true) (spent : s.supply ≤ 1) :
    s.isOver = true := by
  simp only [supply, listens, if_true] at spent
  have empty : s.queue = [] := List.length_eq_zero_iff.1 (by omega)
  have readAll : s.readAll = true := by
    cases read : s.readAll with
    | true => rfl
    | false =>
      simp only [read, Bool.false_eq_true, if_false] at spent
      omega
  have finished : s.supervision = .finished := by
    cases phase : s.supervision with
    | finished => rfl
    | waiting =>
      simp only [phase] at spent
      omega
    | announcing =>
      simp only [phase] at spent
      omega
  simp [isOver, readAll, finished, empty]

/-- With tries enough for the supply of a stream its consumer is told of everything. -/
theorem Carries.received_of_follow (h : Carries output status done s) (listens : s.listening = true)
    {n : Nat} (enough : s.supply ≤ n + 1) :
    (follow eagerMoves n s).received = events output status := by
  induction n generalizing s done with
  | zero => exact h.received_of_isOver listens (isOver_of_supply listens enough)
  | succ n ih =>
    rw [follow]
    split
    · next s' found =>
      obtain ⟨move, tried, moved⟩ := List.exists_of_findSome?_eq_some found
      have step := step_cases moved
      have spent := supply_step step
      obtain ⟨done', h'⟩ := h.step step
      exact ih h' ((listening_of_eager tried step).trans listens) (by omega)
    · next found =>
      have still := List.findSome?_eq_none_iff.1 found
      exact h.received_of_isOver listens (h.isOver_of_still listens still)

/-- An attentive consumer is told of every line and of the end. -/
theorem drain_eq_events (output : List UInt8) (status : ExitStatus) :
    drain output status = events output status := by
  have enough := Nat.le_of_eq (supply_start output status)
  exact (Carries.start output status).received_of_follow rfl enough

end Stream

end Output

end BuildPanel
