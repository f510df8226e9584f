import BuildPanel.Invocation
import BuildPanel.Output.Stream

/-!
How a build's output reaches the client. A relay takes the events of the child's stream and puts a
chunk for every line into a second queue, the body of the answer, and at the end one more chunk that
tells whether the build has succeeded. The client takes chunks at its own pace and may go away; the
relay then goes quiet but takes events to the end. The relay holds the lock on the build directory
and gives it back as its last act.
-/

namespace BuildPanel

namespace Output

inductive Relaying where
  | listening
  /-- It puts a chunk into the body; the last one ends its work. -/
  | sending (chunk : String) (isLast : Bool)
  | finished
  deriving DecidableEq, Repr

/-- A build under way, from the child to the client. -/
structure Relay where
  stream : Stream
  phase : Relaying
  /-- Whether the child is known to have succeeded. -/
  success : Bool
  /-- Whether the relay has found the client gone. -/
  quiet : Bool
  body : List String
  /-- Whether the client is still there. -/
  attended : Bool
  received : List String
  holdsLock : Bool

namespace Relay

def start (output : List UInt8) (status : ExitStatus) : Relay where
  stream := .start output status
  phase := .listening
  success := false
  quiet := false
  body := []
  attended := true
  received := []
  holdsLock := true

inductive Move where
  | stream (move : Stream.Move)
  | hear
  | conclude
  /-- The relay puts its chunk into the body, or finds the client gone. -/
  | send
  | release
  | take
  | leave
  deriving DecidableEq, Repr

def afterChunk (isLast : Bool) : Relaying :=
  if isLast then .finished else .listening

def step (r : Relay) : Move → Option Relay
  | .stream m =>
    if m.party = .consumer then none else (r.stream.step m).map fun s => { r with stream := s }
  | .hear =>
    if r.phase = .listening then
      match r.stream.queue, r.stream.step .receive with
      | .line text :: _, some s => some { r with stream := s, phase := .sending text false }
      | .exited status :: _, some s => some { r with stream := s, success := status.succeeded }
      | _, _ => none
    else none
  | .conclude =>
    if r.phase = .listening ∧ r.stream.isOver then
      some { r with phase := .sending (Invocation.sentinel r.success) true }
    else none
  | .send =>
    match r.phase with
    | .sending chunk isLast =>
      if r.quiet then some { r with phase := afterChunk isLast }
      else if !r.attended then some { r with phase := afterChunk isLast, quiet := true }
      else if r.body.length < queueLimit then
        some { r with phase := afterChunk isLast, body := r.body ++ [chunk] }
      else none
    | _ => none
  | .release =>
    if r.phase = .finished ∧ r.holdsLock then some { r with holdsLock := false } else none
  | .take =>
    if r.attended then
      match r.body with
      | [] => none
      | chunk :: rest => some { r with body := rest, received := r.received ++ [chunk] }
    else none
  | .leave =>
    if r.attended then some { r with attended := false, body := [] } else none

/-- The moves that are tried, in this order, for a client who takes every chunk at once until it has
as many as it wants; `none` stands for a client that stays. -/
def eagerMoves (patience : Option Nat) : List (Relay → Move) :=
  [fun r => if patience = some r.received.length then .leave else .take, fun _ => .send,
    fun _ => .hear, fun _ => .conclude, fun _ => .release] ++
    Stream.eagerMoves.map fun move r => .stream (move r.stream)

/-- Makes at most so many moves. -/
def follow (patience : Option Nat) : Nat → Relay → Relay
  | 0, r => r
  | n + 1, r =>
    match (eagerMoves patience).findSome? fun move => r.step (move r) with
    | some r' => follow patience n r'
    | none => r

/-- As many moves as a relay can take: a line is heard, sent and taken besides its way through the
stream, and there are six more moves for the end and for leaving. -/
def moveLimit (output : List UInt8) : Nat :=
  Stream.moveLimit output + 2 * output.length + 6

/-- The chunks that a client takes. -/
def chunks (patience : Option Nat) (output : List UInt8) (status : ExitStatus) : List String :=
  (follow patience (moveLimit output) (start output status)).received

end Relay

end Output

end BuildPanel
