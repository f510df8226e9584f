import BuildPanel.Output.Lines

/-!
How a child's output reaches its consumer while the child runs. Four parties take part, each at its
own pace:

- the child writes into a pipe of limited room and ends;
- the reader takes bytes out of the pipe, cuts them into lines and puts these into a queue;
- the supervisor waits for the reader, then for the child, and puts the child's end into the queue;
- the consumer takes events out of the queue, and may turn away at any moment.

A full pipe holds up the child and a full queue the reader, until the consumer has turned away: then
the reader goes on and throws lines away, so that the child never waits for anyone who is gone.

`Stream.step` says what each move does; in what order the moves come is left open. `Stream.drain`
is the order in which an attentive consumer meets them.
-/

namespace BuildPanel

namespace Output

def queueLimit : Nat := 128

def pipeLimit : Nat := 65536

inductive Supervision where
  /-- The reader has not finished, or the child has not ended. -/
  | waiting
  /-- The end of the child is to be told. -/
  | announcing
  | finished
  deriving DecidableEq, Repr

inductive Party where
  | child
  | reader
  | supervisor
  | consumer
  deriving DecidableEq, Repr

/-- A child's output under way. -/
structure Stream where
  status : ExitStatus
  /-- What the child has yet to write. -/
  unwritten : List UInt8
  closed : Bool
  exited : Bool
  pipe : List UInt8
  /-- What is read and not yet cut into lines. -/
  held : List UInt8
  /-- The line that the reader is putting into the queue. -/
  offered : Option String
  /-- Whether the reader has found the consumer gone. -/
  discarding : Bool
  readAll : Bool
  supervision : Supervision
  queue : List Event
  listening : Bool
  received : List Event

namespace Stream

def start (output : List UInt8) (status : ExitStatus) : Stream where
  status
  unwritten := output
  closed := false
  exited := false
  pipe := []
  held := []
  offered := none
  discarding := false
  readAll := false
  supervision := .waiting
  queue := []
  listening := true
  received := []

/-- Whether nothing more will be put into the queue and nothing is left in it. -/
def isOver (s : Stream) : Bool :=
  s.readAll && s.supervision = .finished && s.queue.isEmpty

inductive Move where
  | write (n : Nat)
  | close
  | exit
  /-- The reader takes so many bytes out of the pipe. -/
  | fetch (n : Nat)
  | cut
  /-- The reader puts its line into the queue, or finds the consumer gone. -/
  | deliver
  /-- The reader comes to the end of the output. -/
  | finish
  /-- The supervisor sees that the reader has finished and the child has ended. -/
  | reap
  /-- The supervisor puts the end into the queue, or finds the consumer gone. -/
  | announce
  | receive
  | leave
  deriving DecidableEq, Repr

def Move.party : Move → Party
  | write _ | close | exit => .child
  | fetch _ | cut | deliver | finish => .reader
  | reap | announce => .supervisor
  | receive | leave => .consumer

/-- Whether the queue takes another event. -/
def hasRoom (s : Stream) : Bool :=
  s.queue.length < queueLimit

/-- Whether the reader has all of the line that comes next. -/
def hasLine (s : Stream) : Bool :=
  s.held.contains newline || s.closed && s.pipe.isEmpty && !s.held.isEmpty

def step (s : Stream) : Move → Option Stream
  | .write n =>
    if !s.closed && 0 < n && n ≤ s.unwritten.length && s.pipe.length + n ≤ pipeLimit then
      some { s with unwritten := s.unwritten.drop n, pipe := s.pipe ++ s.unwritten.take n }
    else none
  | .close =>
    if !s.closed && s.unwritten.isEmpty then some { s with closed := true } else none
  | .exit =>
    if s.closed && !s.exited then some { s with exited := true } else none
  | .fetch n =>
    if s.offered.isNone && !s.held.contains newline && 0 < n && n ≤ s.pipe.length then
      some { s with pipe := s.pipe.drop n, held := s.held ++ s.pipe.take n }
    else none
  | .cut =>
    if s.offered.isNone && s.hasLine then
      let (line, rest) := Output.cut s.held
      some { s with held := rest, offered := if s.discarding then none else decodeLine line }
    else none
  | .deliver =>
    match s.offered with
    | none => none
    | some line =>
      if !s.listening then some { s with offered := none, discarding := true }
      else if s.hasRoom then some { s with offered := none, queue := s.queue ++ [.line line] }
      else none
  | .finish =>
    if !s.readAll && s.closed && s.pipe.isEmpty && s.held.isEmpty && s.offered.isNone then
      some { s with readAll := true }
    else none
  | .reap =>
    if s.supervision = .waiting && s.readAll && s.exited then
      some { s with supervision := .announcing }
    else none
  | .announce =>
    if s.supervision ≠ .announcing then none
    else if !s.listening then some { s with supervision := .finished }
    else if s.hasRoom then
      some { s with supervision := .finished, queue := s.queue ++ [.exited s.status] }
    else none
  | .receive =>
    if s.listening then
      match s.queue with
      | [] => none
      | e :: rest => some { s with queue := rest, received := s.received ++ [e] }
    else none
  | .leave =>
    if s.listening then some { s with listening := false, queue := [] } else none

/-- The moves that are tried, in this order, for a consumer who takes every event at once. -/
def eagerMoves : List (Stream → Move) :=
  [fun _ => .receive, fun _ => .deliver, fun _ => .announce, fun _ => .cut,
    fun s => .fetch s.pipe.length, fun _ => .finish, fun _ => .reap,
    fun s => .write (min s.unwritten.length (pipeLimit - s.pipe.length)), fun _ => .close,
    fun _ => .exit]

/-- Makes at most so many moves, each the first of the given ones that can be made. -/
def follow (moves : List (Stream → Move)) : Nat → Stream → Stream
  | 0, s => s
  | n + 1, s =>
    match moves.findSome? fun move => s.step (move s) with
    | some s' => follow moves n s'
    | none => s

/-- As many moves as a stream can take: each byte is written, fetched, cut, delivered and received
at most once, and there are six more moves for the end. -/
def moveLimit (output : List UInt8) : Nat :=
  5 * output.length + 6

/-- All that an attentive consumer is told. -/
def drain (output : List UInt8) (status : ExitStatus) : List Event :=
  (follow eagerMoves (moveLimit output) (start output status)).received

end Stream

/-- What a run whose output is collected comes to: whether it succeeded, and all its lines. -/
structure Captured where
  success : Bool
  output : String
  deriving DecidableEq, Repr

/-- Collects events one after another. -/
def Captured.ofEvents (events : List Event) : Captured :=
  events.foldl
    (fun c e =>
      match e with
      | .line text => { c with output := c.output ++ text }
      | .exited status => { c with success := status.succeeded })
    ⟨false, ""⟩

end Output

end BuildPanel
