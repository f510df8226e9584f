import BuildPanel.Proofs.Output.Faithful
import BuildPanel.Proofs.Relay.Account

/-!
A build's output on its way to a client that reads at its own pace and may go away at any moment,
whatever the child, the reader, the supervisor and the relay do and in whatever order.

What arrives are the chunks of the build in their order. A client that goes away stops nothing: its
build goes on as for a client that takes every chunk at once, all that the child writes is read, and
the lock is given back after the child has exited. No party waits for one that is gone, and every
run comes to an end.
-/

namespace BuildPanel

namespace Output

/-! ### What is left to be heard -/

namespace Stream

variable {s s' : Stream} {m : Move}

/-- A bound on the events that the consumer has yet to take: a line has a byte at least. -/
def pending (s : Stream) : Nat :=
  s.unwritten.length + s.pipe.length + s.held.length + s.offered.toList.length + s.queue.length +
    if s.supervision = .finished then 0 else 1

theorem pending_start (output : List UInt8) (status : ExitStatus) :
    (start output status).pending = output.length + 1 := by
  simp [pending, start]

theorem pending_step (move : Step s m s') : s'.pending ≤ s.pending := by
  cases move with
  | wrote holds some_ there =>
    simp only [pending, List.length_drop, List.length_append, List.length_take]
    omega
  | fetched idle some_ there =>
    simp only [pending, List.length_drop, List.length_append, List.length_take]
    omega
  | cut idle line =>
    have some_ : s.held ≠ [] := by
      rcases line with newline | ⟨-, -, held⟩
      · exact List.ne_nil_of_mem newline
      · exact held
    have whole := congrArg List.length (cut_append s.held)
    have one := List.length_pos_iff.2 (cut_fst_ne_nil some_)
    rw [List.length_append] at whole
    cases keeps : s.discarding <;> simp [pending, idle] <;> omega
  | delivered offers listens room => simp [pending, offers]; omega
  | announced announces listens room => simp [pending, announces]; omega
  | received listens waiting => simp [pending, waiting]
  | left listens =>
    simp only [pending, List.length_nil]
    omega
  | _ => simp_all [pending]

theorem pending_receive (h : s.step .receive = some s') : s'.pending + 1 = s.pending := by
  obtain ⟨e, rest, listens, waiting, rfl⟩ := receive_cases h
  simp only [pending, waiting, List.length_cons]
  omega

end Stream

/-- What a relay may still do with the body by itself. -/
def Relaying.supply : Relaying → Nat
  | .listening => 3
  | .sending _ isLast => if isLast then 2 else 5
  | .finished => 0

namespace Relay

variable {r r' : Relay} {m : Move}

theorem supply_afterChunk (chunk : String) (isLast : Bool) :
    (afterChunk isLast).supply + 2 = (Relaying.sending chunk isLast).supply := by
  cases isLast <;> rfl

/-! ### No run goes on for ever -/

/-- What is left of the supply that moves use up: that of the stream, and for every event two moves
more, which send its chunk and take it. -/
def supply (r : Relay) : Nat :=
  r.stream.supply + 2 * r.stream.pending + r.phase.supply + r.body.length +
    (if r.holdsLock then 1 else 0) + (if r.attended then 1 else 0)

theorem supply_start (output : List UInt8) (status : ExitStatus) :
    (start output status).supply = moveLimit output + 2 := by
  simp only [supply, start, Stream.supply_start, Stream.pending_start, Relaying.supply, moveLimit,
    List.length_nil, if_true]
  omega

theorem supply_step (move : Step r m r') : r'.supply < r.supply := by
  cases move with
  | streamed own move =>
    have spent := Stream.supply_step (Stream.step_cases move)
    have heard := Stream.pending_step (Stream.step_cases move)
    simp only [supply]
    omega
  | heardLine listens first move =>
    have spent := Stream.supply_step (Stream.step_cases move)
    have heard := Stream.pending_receive move
    simp only [supply, listens, Relaying.supply, Bool.false_eq_true, if_false]
    omega
  | heardEnd listens first move =>
    have spent := Stream.supply_step (Stream.step_cases move)
    have heard := Stream.pending_receive move
    simp only [supply]
    omega
  | concluded listens drained => simp [supply, listens, Relaying.supply]
  | @muted chunk isLast sends quiet =>
    have spent := supply_afterChunk chunk isLast
    simp only [supply, sends]
    omega
  | @unheard chunk isLast sends loud gone =>
    have spent := supply_afterChunk chunk isLast
    simp only [supply, sends]
    omega
  | @sent chunk isLast sends loud there room =>
    have spent := supply_afterChunk chunk isLast
    simp only [supply, sends, List.length_append, List.length_singleton]
    omega
  | released finished holds => simp [supply, holds]
  | taken there waiting => simp [supply, waiting]
  | left there =>
    simp only [supply, there, if_true, Bool.false_eq_true, if_false, List.length_nil]
    omega

theorem supply_run {ms : List Move} (hrun : r.run ms = some r') :
    ms.length + r'.supply ≤ r.supply := by
  induction ms generalizing r with
  | nil =>
    cases hrun
    simp
  | cons m ms ih =>
    obtain ⟨between, move, hrest⟩ := run_cases hrun
    have later := ih hrest
    have now := supply_step move
    rw [List.length_cons]
    omega

/-- A relay never turns away from its stream, which keeps something back for that. -/
theorem supply_pos (heeds : r.stream.listening = true) : 0 < r.supply := by
  have kept : 0 < r.stream.supply := by simp [Stream.supply, heeds]
  rw [supply]
  omega

/-! ### No move waits for nobody -/

/-- An agent can move. -/
def CanMove (r : Relay) (agent : Agent) : Prop :=
  ∃ m : Move, m.agent = agent ∧ (r.step m).isSome

/-- A client that is still there faces a full body. -/
def Crowded (r : Relay) : Prop :=
  r.attended = true ∧ r.body.length = queueLimit

theorem canMove_client_of_crowded (h : Crowded r) : r.CanMove .client := by
  obtain ⟨there, full⟩ := h
  cases waiting : r.body with
  | nil =>
    rw [waiting] at full
    cases full
  | cons chunk rest => exact ⟨.take, rfl, by simp [Relay.step, there, waiting]⟩

theorem canMove_of_stream {party : Party} (own : party ≠ .consumer)
    (h : r.stream.CanMove party) : r.CanMove (.ofParty party) := by
  obtain ⟨m, rfl, may⟩ := h
  exact ⟨.stream m, rfl, by simpa [Relay.step, own] using may⟩

namespace Conveys

variable {output : List UInt8} {status : ExitStatus}

theorem canMove_of_sending (h : Conveys output status r) {chunk : String} {isLast : Bool}
    (sends : r.phase = .sending chunk isLast) : r.CanMove .relay ∨ Crowded r := by
  cases quiet : r.quiet with
  | true => exact .inl ⟨.send, rfl, by simp [Relay.step, sends, quiet]⟩
  | false =>
    cases there : r.attended with
    | false => exact .inl ⟨.send, rfl, by simp [Relay.step, sends, quiet, there]⟩
    | true =>
      rcases Nat.lt_or_eq_of_le h.bounded with room | full
      · exact .inl ⟨.send, rfl, by simp [Relay.step, sends, quiet, there, room]⟩
      · exact .inr ⟨there, full⟩

theorem canMove_of_waiting (h : Conveys output status r) (listens : r.phase = .listening)
    (waiting : r.stream.queue ≠ []) : r.CanMove .relay := by
  refine ⟨.hear, rfl, ?_⟩
  cases queue : r.stream.queue with
  | nil => exact absurd queue waiting
  | cons e rest => cases e <;> simp [Relay.step, listens, queue, Stream.step, h.heeds]

/-- Until it is finished a relay waits for the child or for a client that is still there, if neither
it nor the reader nor the supervisor can move. -/
theorem progress (h : Conveys output status r) (open_ : r.phase ≠ .finished) :
    r.CanMove .reader ∨ r.CanMove .supervisor ∨ r.CanMove .relay ∨ r.CanMove .child ∨
      Crowded r := by
  cases phase : r.phase with
  | finished => exact absurd phase open_
  | sending chunk isLast =>
    rcases h.canMove_of_sending phase with relay | crowded
    · exact .inr (.inr (.inl relay))
    · exact .inr (.inr (.inr (.inr crowded)))
  | listening =>
    by_cases waiting : r.stream.queue = []
    · obtain ⟨done, carries⟩ := h.carries
      by_cases finished : r.stream.supervision = .finished
      · obtain ⟨readAll, -⟩ := carries.supervised (by rw [finished]; decide)
        have drained : r.stream.isOver = true := by
          simp [Stream.isOver, readAll, finished, waiting]
        exact .inr (.inr (.inl ⟨.conclude, rfl, by simp [Relay.step, phase, drained]⟩))
      · rcases carries.progress finished with reader | supervisor | child | ⟨-, full⟩
        · exact .inl (canMove_of_stream (by decide) reader)
        · exact .inr (.inl (canMove_of_stream (by decide) supervisor))
        · exact .inr (.inr (.inr (.inl (canMove_of_stream (by decide) child))))
        · rw [waiting] at full
          cases full
    · exact .inr (.inr (.inl (h.canMove_of_waiting phase waiting)))

end Conveys

/-! ### What a client cannot change -/

/-- A second relay that does the same for a client of its own, who is there or not and for whom
nothing waits in the body. -/
structure Echoes (there : Bool) (r e : Relay) : Prop where
  stream : e.stream = r.stream
  phase : e.phase = r.phase
  success : e.success = r.success
  lock : e.holdsLock = r.holdsLock
  client : e.attended = there
  loud : there = true → e.quiet = false
  empty : e.body = []

/-- The moves of the second relay for a move of the first one. Its client takes every chunk at once
if it is there, and does nothing else. -/
def echo (there : Bool) : Move → List Move
  | .take | .leave => []
  | .send => if there then [.send, .take] else [.send]
  | m => [m]

def echoes (there : Bool) (ms : List Move) : List Move :=
  ms.flatMap (echo there)

theorem conduct_echoes (there : Bool) (ms : List Move) :
    conduct (echoes there ms) = conduct ms := by
  induction ms with
  | nil => rfl
  | cons m ms ih =>
    have one : conduct (echo there m) = m.conduct := by
      cases m <;> cases there <;> rfl
    rw [echoes, List.flatMap_cons, conduct_cons, ← ih, ← one, conduct, List.flatMap_append]
    rfl

theorem leave_notMem_echoes (there : Bool) (ms : List Move) : .leave ∉ echoes there ms := by
  simp only [echoes, List.mem_flatMap, not_exists, not_and]
  intro m _
  cases m <;> cases there <;> simp [echo]

namespace Echoes

variable {there : Bool} {e : Relay}

/-- The second relay gets rid of its chunk whatever the first one does with the same chunk. -/
theorem send (h : Echoes there r e) {chunk : String} {isLast : Bool}
    (sends : r.phase = .sending chunk isLast) :
    ∃ e', e.run (echo there .send) = some e' ∧
      Echoes there { r with phase := afterChunk isLast } e' := by
  have sends : e.phase = .sending chunk isLast := h.phase.trans sends
  cases there with
  | true =>
    have room : (0 : Nat) < queueLimit := by decide
    exact ⟨{ e with phase := afterChunk isLast, body := [], received := e.received ++ [chunk] },
      by simp [echo, run, Relay.step, sends, h.client, h.loud rfl, h.empty, room],
      ⟨h.stream, rfl, h.success, h.lock, h.client, h.loud, rfl⟩⟩
  | false =>
    cases quiet : e.quiet with
    | true =>
      exact ⟨{ e with phase := afterChunk isLast }, by simp [echo, run, Relay.step, sends, quiet],
        ⟨h.stream, rfl, h.success, h.lock, h.client, fun here => absurd here (by decide), h.empty⟩⟩
    | false =>
      exact ⟨{ e with phase := afterChunk isLast, quiet := true },
        by simp [echo, run, Relay.step, sends, quiet, h.client],
        ⟨h.stream, rfl, h.success, h.lock, h.client, fun here => absurd here (by decide), h.empty⟩⟩

theorem step (h : Echoes there r e) (move : Step r m r') :
    ∃ e', e.run (echo there m) = some e' ∧ Echoes there r' e' := by
  cases move with
  | @streamed m s own move =>
    exact ⟨{ e with stream := s }, by simp [echo, run, Relay.step, own, h.stream, move],
      ⟨rfl, h.phase, h.success, h.lock, h.client, h.loud, h.empty⟩⟩
  | @heardLine text rest s listens first move =>
    exact ⟨{ e with stream := s, phase := .sending text false },
      by simp [echo, run, Relay.step, h.phase, h.stream, listens, first, move],
      ⟨rfl, rfl, h.success, h.lock, h.client, h.loud, h.empty⟩⟩
  | @heardEnd status rest s listens first move =>
    exact ⟨{ e with stream := s, success := status.succeeded },
      by simp [echo, run, Relay.step, h.phase, h.stream, listens, first, move],
      ⟨rfl, h.phase, rfl, h.lock, h.client, h.loud, h.empty⟩⟩
  | concluded listens drained =>
    exact ⟨{ e with phase := .sending (Invocation.sentinel r.success) true },
      by simp [echo, run, Relay.step, h.phase, h.stream, h.success, listens, drained],
      ⟨h.stream, rfl, h.success, h.lock, h.client, h.loud, h.empty⟩⟩
  | muted sends quiet => exact h.send sends
  | unheard sends loud gone =>
    obtain ⟨e', ran, same⟩ := h.send sends
    exact ⟨e', ran, { same with }⟩
  | sent sends loud there room =>
    obtain ⟨e', ran, same⟩ := h.send sends
    exact ⟨e', ran, { same with }⟩
  | released finished holds =>
    exact ⟨{ e with holdsLock := false },
      by simp [echo, run, Relay.step, h.phase, h.lock, finished, holds],
      ⟨h.stream, h.phase, h.success, rfl, h.client, h.loud, h.empty⟩⟩
  | taken there waiting => exact ⟨e, rfl, { h with }⟩
  | left there => exact ⟨e, rfl, { h with }⟩

theorem run {ms : List Move} (h : Echoes there r e) (hrun : r.run ms = some r') :
    ∃ e', e.run (echoes there ms) = some e' ∧ Echoes there r' e' := by
  induction ms generalizing r e with
  | nil =>
    cases hrun
    exact ⟨e, rfl, h⟩
  | cons m ms ih =>
    obtain ⟨between, move, hrest⟩ := run_cases hrun
    obtain ⟨first, hfirst, same⟩ := h.step move
    obtain ⟨last, hlast, same⟩ := ih same hrest
    refine ⟨last, ?_, same⟩
    rw [echoes, List.flatMap_cons, run_append, hfirst]
    exact hlast

end Echoes

/-! ### The contract -/

/-- What holds of a build and its client after some moves. -/
structure Delivers (output : List UInt8) (status : ExitStatus) (ms : List Move) (r : Relay) :
    Prop where
  /-- What the client has received are the first of the chunks, in their order. -/
  received_first : r.received <+: wholeBody output status
  bounded : r.stream.queue.length ≤ queueLimit ∧ r.body.length ≤ queueLimit
  /-- A client that stays until the body is closed and empty has received every chunk. -/
  complete : r.attended = true → r.phase = .finished → r.body = [] →
    r.received = wholeBody output status
  /-- The lock is free only after the child has exited, its output has been read to the end of file
  and its end has been told to the relay. -/
  lock : r.holdsLock = false →
    r.stream.exited = true ∧ r.stream.readAll = true ∧ r.stream.received = events output status
  /-- At the end of file the reader has taken every byte of the output. -/
  readAll : r.stream.readAll = true → Stream.fetched (conduct ms) = output.length
  /-- Where neither the reader nor the supervisor nor the relay can move, the child can or a client
  that is still there has to make room; or else the lock has been given back. -/
  unstuck : r.CanMove .reader ∨ r.CanMove .supervisor ∨ r.CanMove .relay ∨ r.CanMove .child ∨
    Crowded r ∧ r.CanMove .client ∨ r.holdsLock = false
  /-- Where none but the client can move, and nothing is left to take for a client that is still
  there, the lock has been given back, and a client that is still there has received every chunk. -/
  settled : (∀ agent, agent ≠ .client → ¬ r.CanMove agent) → (r.attended = true → r.body = []) →
    r.holdsLock = false ∧ (r.attended = true → r.received = wholeBody output status)
  /-- What child, reader, supervisor and lock have done they also do for a client that takes every
  chunk at once and stays. -/
  loyal : ∃ ms' e, .leave ∉ ms' ∧ (start output status).run ms' = some e ∧
    conduct ms' = conduct ms ∧ e.stream = r.stream ∧ e.holdsLock = r.holdsLock
  /-- What they may do from now on they may also do if the client goes away now. -/
  heedless : r.attended = true → ∀ ms' r', r.run ms' = some r' →
    ∃ ms'' e, r.run (.leave :: ms'') = some e ∧
      conduct ms'' = conduct ms' ∧ e.stream = r'.stream ∧ e.holdsLock = r'.holdsLock
  /-- No run takes more moves than the output allows. -/
  short : ms.length ≤ moveLimit output + 1

/-- Every run delivers the build's output, at whatever pace the client reads and whenever it goes
away. -/
theorem delivers_of_run (output : List UInt8) (status : ExitStatus) (ms : List Move) (r : Relay)
    (hrun : (start output status).run ms = some r) : Delivers output status ms r := by
  have h := conveys_run (Conveys.start output status) hrun
  obtain ⟨done, carries⟩ := h.carries
  have freed : r.phase = .finished → r.CanMove .relay ∨ r.holdsLock = false := by
    intro finished
    cases holds : r.holdsLock with
    | false => exact .inr rfl
    | true => exact .inl ⟨.release, rfl, by simp [Relay.step, finished, holds]⟩
  constructor
  case received_first => exact h.received_prefix
  case bounded => exact ⟨carries.bounded, h.bounded⟩
  case complete => exact h.received_eq
  case lock =>
    intro free
    have concluded : r.phase.isConcluded = true := by
      rw [h.lock free]
      rfl
    obtain ⟨readAll, exited, -⟩ := h.ended_of_concluded concluded
    exact ⟨exited, readAll, h.concluded concluded⟩
  case readAll =>
    intro readAll
    obtain ⟨closed, pipe, -⟩ := carries.read readAll
    have bytes := Stream.fetched_run (conduct_run hrun)
    rw [pipe, carries.wrote closed] at bytes
    simpa [start, Stream.start] using bytes
  case unstuck =>
    by_cases finished : r.phase = .finished
    · rcases freed finished with relay | free
      · exact .inr (.inr (.inl relay))
      · exact .inr (.inr (.inr (.inr (.inr free))))
    · rcases h.progress finished with reader | supervisor | relay | child | crowded
      · exact .inl reader
      · exact .inr (.inl supervisor)
      · exact .inr (.inr (.inl relay))
      · exact .inr (.inr (.inr (.inl child)))
      · exact .inr (.inr (.inr (.inr (.inl ⟨crowded, canMove_client_of_crowded crowded⟩))))
  case settled =>
    intro still empty
    have finished : r.phase = .finished := by
      refine Classical.byContradiction fun open_ => ?_
      rcases h.progress open_ with reader | supervisor | relay | child | ⟨there, full⟩
      · exact still _ (by decide) reader
      · exact still _ (by decide) supervisor
      · exact still _ (by decide) relay
      · exact still _ (by decide) child
      · rw [empty there] at full
        cases full
    refine ⟨?_, fun there => h.received_eq there finished (empty there)⟩
    rcases freed finished with relay | free
    · exact absurd relay (still _ (by decide))
    · exact free
  case loyal =>
    have first : Echoes true (start output status) (start output status) :=
      ⟨rfl, rfl, rfl, rfl, rfl, fun _ => rfl, rfl⟩
    obtain ⟨e, ran, same⟩ := first.run hrun
    exact ⟨_, e, leave_notMem_echoes true ms, ran, conduct_echoes true ms, same.stream, same.lock⟩
  case heedless =>
    intro there ms' r' hlater
    have first : Echoes false r { r with attended := false, body := [] } :=
      ⟨rfl, rfl, rfl, rfl, rfl, fun here => absurd here (by decide), rfl⟩
    obtain ⟨e, ran, same⟩ := first.run hlater
    refine ⟨echoes false ms', e, ?_, conduct_echoes false ms', same.stream, same.lock⟩
    simpa [run, Relay.step, there] using ran
  case short =>
    have moves := supply_run hrun
    have kept := supply_pos h.heeds
    rw [supply_start] at moves
    omega

/-- A build that prints two lines and fails for a client that goes away after the first of them. -/
def departing : List Move :=
  [.stream (.write 2), .stream (.fetch 2), .stream .cut, .stream .deliver, .hear, .send, .take,
    .stream (.write 1), .leave, .stream .close, .stream (.fetch 1), .stream .cut, .stream .deliver,
    .hear, .send, .stream .finish, .stream .exit, .stream .reap, .stream .announce, .hear,
    .conclude, .send, .release]

theorem delivers_departing : ∃ r, (start [104, 10, 105] (.code 1)).run departing = some r ∧
    Delivers [104, 10, 105] (.code 1) departing r :=
  ⟨_, rfl, delivers_of_run [104, 10, 105] (.code 1) departing _ rfl⟩

end Relay

end Output

end BuildPanel
