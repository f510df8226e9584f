import BuildPanel.Output.Relay
import BuildPanel.Proofs.Output.Moves

/-!
Runs of a relay. A run is a list of moves of the child, the reader, the supervisor, the relay and
the client, and every interleaving of the five is one. `Relay.Step` says once what a move can do.

To the child, the reader and the supervisor the relay is the consumer of their stream, and one that
never turns away: what a run of the relay does to the stream is a run of the stream, `conduct`.
-/

namespace BuildPanel

namespace Output

namespace Stream

theorem run_append (s : Stream) (ms ms' : List Move) :
    s.run (ms ++ ms') = (s.run ms).bind fun between => between.run ms' := by
  induction ms generalizing s with
  | nil => rfl
  | cons m ms ih =>
    simp only [List.cons_append, run, Option.bind_assoc]
    exact congrArg _ (funext ih)

end Stream

namespace Relay

inductive Agent where
  | child
  | reader
  | supervisor
  | relay
  | client
  deriving DecidableEq, Repr

/-- The consumer of the child's stream is the relay. -/
def Agent.ofParty : Party → Agent
  | .child => .child
  | .reader => .reader
  | .supervisor => .supervisor
  | .consumer => .relay

def Move.agent : Move → Agent
  | .stream m => .ofParty m.party
  | .hear | .conclude | .send | .release => .relay
  | .take | .leave => .client

/-- The relay after some moves, if all of them can be made. -/
def run (r : Relay) : List Move → Option Relay
  | [] => some r
  | m :: ms => (r.step m).bind fun r' => r'.run ms

/-- What a move can do. -/
inductive Step (r : Relay) : Move → Relay → Prop where
  | streamed {m : Stream.Move} {s : Stream} (own : m.party ≠ .consumer)
      (move : r.stream.step m = some s) : Step r (.stream m) { r with stream := s }
  | heardLine {text : String} {rest : List Event} {s : Stream} (listens : r.phase = .listening)
      (first : r.stream.queue = .line text :: rest) (move : r.stream.step .receive = some s) :
      Step r .hear { r with stream := s, phase := .sending text false }
  | heardEnd {status : ExitStatus} {rest : List Event} {s : Stream} (listens : r.phase = .listening)
      (first : r.stream.queue = .exited status :: rest)
      (move : r.stream.step .receive = some s) :
      Step r .hear { r with stream := s, success := status.succeeded }
  | concluded (listens : r.phase = .listening) (drained : r.stream.isOver = true) :
      Step r .conclude { r with phase := .sending (Invocation.sentinel r.success) true }
  | muted {chunk : String} {isLast : Bool} (sends : r.phase = .sending chunk isLast)
      (quiet : r.quiet = true) : Step r .send { r with phase := afterChunk isLast }
  | unheard {chunk : String} {isLast : Bool} (sends : r.phase = .sending chunk isLast)
      (loud : r.quiet = false) (gone : r.attended = false) :
      Step r .send { r with phase := afterChunk isLast, quiet := true }
  | sent {chunk : String} {isLast : Bool} (sends : r.phase = .sending chunk isLast)
      (loud : r.quiet = false) (there : r.attended = true) (room : r.body.length < queueLimit) :
      Step r .send { r with phase := afterChunk isLast, body := r.body ++ [chunk] }
  | released (finished : r.phase = .finished) (holds : r.holdsLock = true) :
      Step r .release { r with holdsLock := false }
  | taken {chunk : String} {rest : List String} (there : r.attended = true)
      (waiting : r.body = chunk :: rest) :
      Step r .take { r with body := rest, received := r.received ++ [chunk] }
  | left (there : r.attended = true) : Step r .leave { r with attended := false, body := [] }

variable {r r' : Relay} {m : Move}

theorem step_cases (h : r.step m = some r') : Step r m r' := by
  cases m with
  | stream m =>
    simp only [step] at h
    split at h
    · cases h
    · next own =>
      obtain ⟨s, move, rfl⟩ := Option.map_eq_some_iff.1 h
      exact .streamed own move
  | hear =>
    simp only [step] at h
    split at h
    · next listens =>
      split at h
      · next first move =>
        cases h
        exact .heardLine listens first move
      · next first move =>
        cases h
        exact .heardEnd listens first move
      · cases h
    · cases h
  | conclude =>
    simp only [step] at h
    split at h
    · next may =>
      cases h
      exact .concluded may.1 may.2
    · cases h
  | send =>
    simp only [step] at h
    split at h
    · next chunk isLast sends =>
      split at h
      · next quiet =>
        cases h
        exact .muted sends quiet
      · next loud =>
        have loud : r.quiet = false := by simpa using loud
        split at h
        · next gone =>
          cases h
          exact .unheard sends loud (by simpa using gone)
        · next there =>
          split at h
          · next room =>
            cases h
            exact .sent sends loud (by simpa using there) room
          · cases h
    · cases h
  | release =>
    simp only [step] at h
    split at h
    · next may =>
      cases h
      exact .released may.1 may.2
    · cases h
  | take =>
    simp only [step] at h
    split at h
    · next there =>
      split at h
      · cases h
      · next chunk rest waiting =>
        cases h
        exact .taken there waiting
    · cases h
  | leave =>
    simp only [step] at h
    split at h
    · next there =>
      cases h
      exact .left there
    · cases h

/-- A run begins with a move and goes on from there. -/
theorem run_cases {ms : List Move} (hrun : r.run (m :: ms) = some r') :
    ∃ between, Step r m between ∧ between.run ms = some r' := by
  obtain ⟨between, hstep, hrest⟩ := Option.bind_eq_some_iff.1 hrun
  exact ⟨between, step_cases hstep, hrest⟩

theorem run_append (r : Relay) (ms ms' : List Move) :
    r.run (ms ++ ms') = (r.run ms).bind fun between => between.run ms' := by
  induction ms generalizing r with
  | nil => rfl
  | cons m ms ih =>
    simp only [List.cons_append, run, Option.bind_assoc]
    exact congrArg _ (funext ih)

/-! ### What a run does to the stream -/

def Move.conduct : Move → List Stream.Move
  | .stream m => [m]
  | .hear => [.receive]
  | _ => []

/-- The moves of the stream among those of the relay. -/
def conduct (ms : List Move) : List Stream.Move :=
  ms.flatMap Move.conduct

theorem conduct_cons (m : Move) (ms : List Move) : conduct (m :: ms) = m.conduct ++ conduct ms :=
  List.flatMap_cons

theorem conduct_step (move : Step r m r') : r.stream.run m.conduct = some r'.stream := by
  cases move with
  | streamed own move => simp [Move.conduct, Stream.run, move]
  | heardLine listens first move => simp [Move.conduct, Stream.run, move]
  | heardEnd listens first move => simp [Move.conduct, Stream.run, move]
  | _ => rfl

theorem conduct_run {ms : List Move} (hrun : r.run ms = some r') :
    r.stream.run (conduct ms) = some r'.stream := by
  induction ms generalizing r with
  | nil =>
    cases hrun
    rfl
  | cons m ms ih =>
    obtain ⟨between, move, hrest⟩ := run_cases hrun
    rw [conduct_cons, Stream.run_append, conduct_step move]
    exact ih hrest

end Relay

end Output

end BuildPanel
