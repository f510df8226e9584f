import BuildPanel.Proofs.Output.Carries
import BuildPanel.Proofs.Relay.Moves

/-!
What a relay gives an account of. At every moment the chunks that the client has taken, those that
wait in the body and the one that the relay is putting there are, one after another, the lines that
the relay has heard and, once it has heard of the end, the sentinel. A client that is gone has taken
the first of the chunks, and the relay hears the rest of the lines without it.
-/

namespace BuildPanel

namespace Output

/-! ### What the consumer of a stream knows -/

namespace Stream

variable {s s' : Stream} {m : Move}

/-- Only the consumer takes events or turns away. -/
theorem unheard_step (move : Step s m s') (own : m.party ≠ .consumer) :
    s'.received = s.received ∧ s'.listening = s.listening := by
  cases move with
  | received listens waiting => exact absurd rfl own
  | left listens => exact absurd rfl own
  | _ => exact ⟨rfl, rfl⟩

theorem receive_cases (h : s.step .receive = some s') :
    ∃ e rest, s.listening = true ∧ s.queue = e :: rest ∧
      s' = { s with queue := rest, received := s.received ++ [e] } := by
  cases step_cases h with
  | received listens waiting => exact ⟨_, _, listens, waiting, rfl⟩

namespace Carries

variable {output : List UInt8} {status : ExitStatus} {done : List (List UInt8)}

/-- The end that the consumer is told of is that of the child. -/
theorem told_status (h : Carries output status done s) {o : ExitStatus}
    (told : .exited o ∈ s.received) : o = status := by
  rw [h.received_eq told, events] at told
  simpa using told

end Carries

end Stream

/-! ### The chunks of a build -/

/-- The text of a line that is told; the end has none. -/
def Event.text? : Event → Option String
  | .line text => some text
  | .exited _ => none

/-- All chunks of a build: its lines in order, then the sentinel. -/
def wholeBody (output : List UInt8) (status : ExitStatus) : List String :=
  (lines output).map decodeLine ++ [Invocation.sentinel status.succeeded]

theorem texts_events (output : List UInt8) (status : ExitStatus) :
    (events output status).filterMap Event.text? = (lines output).map decodeLine := by
  have each : Event.text? ∘ (fun l => .line (decodeLine l)) = some ∘ decodeLine := rfl
  rw [events, List.filterMap_append, List.filterMap_map, each, List.filterMap_eq_map]
  simp [Event.text?]

theorem exited_mem_events (output : List UInt8) (status : ExitStatus) :
    .exited status ∈ events output status :=
  List.mem_append_right _ (List.mem_singleton_self _)

/-- The chunk that a relay is putting into the body. -/
def Relaying.chunk : Relaying → List String
  | .sending chunk _ => [chunk]
  | _ => []

/-- Whether a relay has heard everything. -/
def Relaying.isConcluded : Relaying → Bool
  | .listening => false
  | .sending _ isLast => isLast
  | .finished => true

namespace Relay

variable {r r' : Relay} {m : Move} {output : List UInt8} {status : ExitStatus}

@[simp]
theorem chunk_afterChunk (isLast : Bool) : (afterChunk isLast).chunk = [] := by
  cases isLast <;> rfl

@[simp]
theorem isConcluded_afterChunk (isLast : Bool) : (afterChunk isLast).isConcluded = isLast := by
  cases isLast <;> rfl

/-- The chunks for what the relay has heard. -/
def spoken (r : Relay) : List String :=
  r.stream.received.filterMap Event.text? ++
    if r.phase.isConcluded then [Invocation.sentinel r.success] else []

/-- A relay under way whose child writes an output and ends with a status. -/
structure Conveys (output : List UInt8) (status : ExitStatus) (r : Relay) : Prop where
  carries : ∃ done, Stream.Carries output status done r.stream
  heeds : r.stream.listening = true
  outcome : ∀ o, .exited o ∈ r.stream.received → r.success = status.succeeded
  concluded : r.phase.isConcluded = true → r.stream.received = events output status
  attended : r.attended = true →
    r.quiet = false ∧ r.received ++ r.body ++ r.phase.chunk = r.spoken
  alone : r.attended = false → r.body = [] ∧ r.received <+: wholeBody output status
  bounded : r.body.length ≤ queueLimit
  lock : r.holdsLock = false → r.phase = .finished

namespace Conveys

theorem start (output : List UInt8) (status : ExitStatus) :
    Conveys output status (.start output status) where
  carries := ⟨[], Stream.Carries.start output status⟩
  heeds := rfl
  outcome := nofun
  concluded := nofun
  attended _ := ⟨rfl, rfl⟩
  alone := nofun
  bounded := Nat.zero_le _
  lock := nofun

theorem spoken_of_concluded (h : Conveys output status r) (concluded : r.phase.isConcluded = true) :
    r.spoken = wholeBody output status := by
  have heard := h.concluded concluded
  have success := h.outcome status (heard ▸ exited_mem_events output status)
  rw [spoken, heard, texts_events, if_pos concluded, success, wholeBody]

theorem spoken_prefix (h : Conveys output status r) : r.spoken <+: wholeBody output status := by
  by_cases concluded : r.phase.isConcluded = true
  · exact h.spoken_of_concluded concluded ▸ List.prefix_rfl
  · obtain ⟨done, carries⟩ := h.carries
    rw [spoken, if_neg concluded, List.append_nil, wholeBody, ← texts_events output status]
    exact (carries.received_prefix.filterMap _).trans (List.prefix_append _ _)

theorem received_prefix (h : Conveys output status r) :
    r.received <+: wholeBody output status := by
  cases there : r.attended with
  | false => exact (h.alone there).2
  | true =>
    obtain ⟨-, said⟩ := h.attended there
    refine List.IsPrefix.trans ?_ h.spoken_prefix
    rw [← said, List.append_assoc]
    exact List.prefix_append _ _

/-- A client that stays until the body is closed and empty has received every chunk. -/
theorem received_eq (h : Conveys output status r) (there : r.attended = true)
    (finished : r.phase = .finished) (empty : r.body = []) :
    r.received = wholeBody output status := by
  obtain ⟨-, said⟩ := h.attended there
  have concluded : r.phase.isConcluded = true := by rw [finished]; rfl
  rw [h.spoken_of_concluded concluded, empty, finished] at said
  simpa [Relaying.chunk] using said

/-- What has happened to the child by the time the relay has heard everything. -/
theorem ended_of_concluded (h : Conveys output status r)
    (concluded : r.phase.isConcluded = true) :
    r.stream.readAll = true ∧ r.stream.exited = true ∧ r.stream.supervision = .finished := by
  obtain ⟨done, carries⟩ := h.carries
  have finished := carries.finished_of_received_eq (h.concluded concluded)
  obtain ⟨readAll, exited⟩ := carries.supervised (by rw [finished]; decide)
  exact ⟨readAll, exited, finished⟩

/-! ### Every move keeps the account -/

theorem streamed (h : Conveys output status r) {m : Stream.Move} {s : Stream}
    (own : m.party ≠ .consumer) (move : r.stream.step m = some s) :
    Conveys output status { r with stream := s } := by
  obtain ⟨done, carries⟩ := h.carries
  have step := Stream.step_cases move
  obtain ⟨received, listening⟩ := Stream.unheard_step step own
  have same : spoken { r with stream := s } = r.spoken := by simp only [spoken, received]
  exact { h with
    carries := carries.step step
    heeds := listening.trans h.heeds
    outcome := by simpa only [received] using h.outcome
    concluded := by simpa only [received] using h.concluded
    attended := by simpa only [same] using h.attended }

theorem heardLine (h : Conveys output status r) {text : String} {rest : List Event} {s : Stream}
    (listens : r.phase = .listening) (first : r.stream.queue = .line text :: rest)
    (move : r.stream.step .receive = some s) :
    Conveys output status { r with stream := s, phase := .sending text false } := by
  obtain ⟨done, carries⟩ := h.carries
  have step := carries.step (Stream.step_cases move)
  obtain ⟨e, others, listening, waiting, rfl⟩ := Stream.receive_cases move
  obtain ⟨rfl, rfl⟩ := List.cons.inj (first.symm.trans waiting)
  refine { h with
    carries := step, heeds := listening, outcome := ?_, concluded := nofun, attended := ?_
    lock := ?_ }
  · intro o told
    exact h.outcome o (by simpa using told)
  · intro there
    obtain ⟨loud, said⟩ := h.attended there
    refine ⟨loud, ?_⟩
    simp only [spoken, listens, Relaying.chunk, Relaying.isConcluded, List.append_nil,
      Bool.false_eq_true, if_false] at said ⊢
    simp [said, Event.text?]
  · intro free
    rw [h.lock free] at listens
    cases listens

theorem heardEnd (h : Conveys output status r) {o : ExitStatus} {rest : List Event} {s : Stream}
    (listens : r.phase = .listening) (first : r.stream.queue = .exited o :: rest)
    (move : r.stream.step .receive = some s) :
    Conveys output status { r with stream := s, success := o.succeeded } := by
  obtain ⟨done, carries⟩ := h.carries
  obtain ⟨done', step⟩ := carries.step (Stream.step_cases move)
  obtain ⟨e, others, listening, waiting, rfl⟩ := Stream.receive_cases move
  obtain ⟨rfl, rfl⟩ := List.cons.inj (first.symm.trans waiting)
  have its : o = status := step.told_status (by simp)
  refine { h with
    carries := ⟨done', step⟩, heeds := listening, outcome := ?_, concluded := ?_
    attended := ?_ }
  · intro _ _
    rw [its]
  · intro concluded
    rw [listens] at concluded
    cases concluded
  · intro there
    obtain ⟨loud, said⟩ := h.attended there
    refine ⟨loud, ?_⟩
    simp only [spoken, listens, Relaying.isConcluded, Bool.false_eq_true, if_false] at said ⊢
    simp [said, Event.text?]

theorem conclude (h : Conveys output status r) (listens : r.phase = .listening)
    (drained : r.stream.isOver = true) :
    Conveys output status { r with phase := .sending (Invocation.sentinel r.success) true } := by
  obtain ⟨done, carries⟩ := h.carries
  refine { h with concluded := ?_, attended := ?_, lock := ?_ }
  · intro _
    exact carries.received_of_isOver h.heeds drained
  · intro there
    obtain ⟨loud, said⟩ := h.attended there
    refine ⟨loud, ?_⟩
    simp only [spoken, listens, Relaying.chunk, Relaying.isConcluded, List.append_nil,
      Bool.false_eq_true, if_false, if_true] at said ⊢
    rw [said]
  · intro free
    rw [h.lock free] at listens
    cases listens

/-- A relay that is sending still holds the lock. -/
theorem holds_of_sending (h : Conveys output status r) {chunk : String} {isLast : Bool}
    (sends : r.phase = .sending chunk isLast) : r.holdsLock = true := by
  cases free : r.holdsLock with
  | true => rfl
  | false =>
    rw [h.lock free] at sends
    cases sends

/-- Nothing has to be accounted for to a client that is gone. -/
theorem unattended (h : Conveys output status r) {chunk : String} {isLast : Bool} (quiet : Bool)
    (sends : r.phase = .sending chunk isLast) (gone : r.attended = false) :
    Conveys output status { r with phase := afterChunk isLast, quiet := quiet } := by
  have holds := h.holds_of_sending sends
  refine { h with concluded := ?_, attended := ?_, lock := ?_ }
  · intro concluded
    refine h.concluded ?_
    rw [isConcluded_afterChunk] at concluded
    rw [sends]
    exact concluded
  · intro there
    rw [gone] at there
    cases there
  · intro free
    rw [holds] at free
    cases free

theorem sent (h : Conveys output status r) {chunk : String} {isLast : Bool}
    (sends : r.phase = .sending chunk isLast) (there : r.attended = true)
    (room : r.body.length < queueLimit) :
    Conveys output status { r with phase := afterChunk isLast, body := r.body ++ [chunk] } := by
  have holds := h.holds_of_sending sends
  refine { h with concluded := ?_, attended := ?_, alone := ?_, bounded := ?_, lock := ?_ }
  · intro concluded
    refine h.concluded ?_
    rw [isConcluded_afterChunk] at concluded
    rw [sends]
    exact concluded
  · intro _
    obtain ⟨loud, said⟩ := h.attended there
    refine ⟨loud, ?_⟩
    simp only [spoken, sends, Relaying.chunk, Relaying.isConcluded] at said
    simp [spoken, ← said]
  · intro gone
    rw [there] at gone
    cases gone
  · simp only [List.length_append, List.length_singleton]
    omega
  · intro free
    rw [holds] at free
    cases free

theorem step (h : Conveys output status r) (move : Step r m r') : Conveys output status r' := by
  cases move with
  | streamed own move => exact h.streamed own move
  | heardLine listens first move => exact h.heardLine listens first move
  | heardEnd listens first move => exact h.heardEnd listens first move
  | concluded listens drained => exact h.conclude listens drained
  | muted sends quiet =>
    have gone : r.attended = false := by
      cases there : r.attended with
      | false => rfl
      | true =>
        rw [(h.attended there).1] at quiet
        cases quiet
    exact h.unattended r.quiet sends gone
  | unheard sends loud gone => exact h.unattended true sends gone
  | sent sends loud there room => exact h.sent sends there room
  | released finished holds => exact { h with lock := fun _ => finished }
  | @taken chunk rest there waiting =>
    refine { h with attended := ?_, alone := ?_, bounded := ?_ }
    · intro _
      obtain ⟨loud, said⟩ := h.attended there
      refine ⟨loud, ?_⟩
      rw [waiting] at said
      simpa [spoken] using said
    · intro gone
      rw [there] at gone
      cases gone
    · have bounded := h.bounded
      rw [waiting, List.length_cons] at bounded
      exact Nat.le_of_succ_le bounded
  | left there =>
    exact { h with
      attended := nofun
      alone := fun _ => ⟨rfl, h.received_prefix⟩
      bounded := Nat.zero_le _ }

end Conveys

/-- Runs keep the account. -/
theorem conveys_run {ms : List Move} (h : Conveys output status r) (hrun : r.run ms = some r') :
    Conveys output status r' := by
  induction ms generalizing r with
  | nil =>
    cases hrun
    exact h
  | cons m ms ih =>
    obtain ⟨between, move, hrest⟩ := run_cases hrun
    exact ih (h.step move) hrest

end Relay

end Output

end BuildPanel
