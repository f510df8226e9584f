import BuildPanel.Panel.Endpoint

/-!
Requests side by side. Cleaning, applying and building take their steps one at a time, in any order
with those of other requests; between two steps anything else may happen. The three of them work in
the build directory only while they hold its lock, which is granted in the order in which it was
asked for. A child, once started, goes its own way to its end.

A client may go away while its request waits: for the lock or, when applying, for the build tool to
end. Its request is then dropped with all that it holds, but a child that it has started goes on. A
build does not depend on its client at all.

`World.step` says what each move does and leaves open which move comes next; `World.settle` is one
order in which all requests come to their answers.
-/

namespace BuildPanel

namespace Panel

open Http

inductive Action where
  | clean
  | apply (options : OptionSet)
  /-- A build, and after how many chunks its client goes away. -/
  | build (patience : Option Nat)

/-- The arguments that an action hands to the build tool. -/
def arguments (p : Panel) : Action → List (List UInt8)
  | .clean => []
  | .apply options => p.configureArguments options
  | .build _ => Invocation.build

/-- How far a request is. -/
inductive Phase where
  | arrived (request : Request)
  | saving (options : OptionSet)
  | asking (action : Action)
  /-- The lock has been asked for, and perhaps granted. -/
  | waiting (action : Action)
  | wiping
  | remaking
  | launching (action : Action)
  /-- The build tool has been started as the child of that number. -/
  | running (action : Action) (child : Nat)
  | answered (response : Response)
  /-- The client has gone away, and the request with it. -/
  | dropped

structure Child where
  course : Course
  written : List UInt8
  /-- How the child has ended, if it has. -/
  ended : Option ExitStatus

structure World where
  files : FileSystem
  holder : Option Nat
  /-- The requests that wait for the lock, in the order in which they have asked. -/
  line : List Nat
  requests : List Phase
  children : List Child

namespace World

/-- The world in which requests have just arrived. -/
def start (fs : FileSystem) (requests : List Request) : World :=
  ⟨fs, none, [], requests.map .arrived, []⟩

/-- The world with a request in another phase. -/
def setPhase (w : World) (i : Nat) (phase : Phase) : World :=
  { w with requests := w.requests.set i phase }

/-- The lock goes to the first in line. -/
def release (w : World) : World :=
  { w with holder := w.line.head?, line := w.line.tail }

def answer (w : World) (i : Nat) (response : Response) : World :=
  (w.setPhase i (.answered response)).release

def directoryFailure (action : Action) (e : BuildDirectory.DirectoryError) : Response :=
  match action with
  | .clean => cleanAnswer (.error e)
  | .apply _ => applyFailure e.message
  | .build patience => buildFailure patience e.message

/-- The answer to an action whose program could not be started. -/
def spawnFailure (action : Action) (fault : SpawnFault) : Response :=
  match action with
  | .build patience => buildFailure patience fault.message
  | _ => applyFailure fault.message

/-- The answer to an action whose program has ended. -/
def ending (action : Action) (output : List UInt8) (status : ExitStatus) : Response :=
  match action with
  | .build patience => buildEnding patience output status
  | _ => applyEnding output status

/-- The first phase of a request after its arrival; all that needs no lock is done at once. -/
def accept (p : Panel) (fs : FileSystem) (r : Request) : FileSystem × Phase :=
  let endpoint := (Endpoint.ofPath? r.path).filter (·.methods.contains r.method)
  match endpoint, r.options with
  | some .clean, _ => (fs, .asking .clean)
  | some .build, _ => (fs, .asking (.build r.patience))
  | some .apply, .ok options => (fs, .saving options)
  | _, _ =>
    let (fs, response) := p.respond fs r
    (fs, .answered response)

/-- The next step of a request, if it can take one. -/
def advance (p : Panel) (w : World) (i : Nat) : Option World :=
  let build := p.configuration.build
  match w.requests[i]? with
  | some (.arrived r) =>
    let (files, phase) := accept p w.files r
    some ({ w with files }.setPhase i phase)
  | some (.saving options) =>
    match Settings.save w.files p.configuration.settings options with
    | (files, .error fault) =>
      some ({ w with files }.setPhase i (.answered (applyFailure (saveFailure fault))))
    | (files, .ok ()) => some ({ w with files }.setPhase i (.asking (.apply options)))
  | some (.asking action) =>
    let w := w.setPhase i (.waiting action)
    if w.holder = none then some { w with holder := some i }
    else some { w with line := w.line ++ [i] }
  | some (.waiting action) =>
    if w.holder = some i then
      match BuildDirectory.ensure w.files build, action with
      | (files, .error e), _ => some ({ w with files }.answer i (directoryFailure action e))
      | (files, .ok ()), .clean => some ({ w with files }.setPhase i .wiping)
      | (files, .ok ()), _ => some ({ w with files }.setPhase i (.launching action))
    else none
  | some .wiping =>
    match BuildDirectory.wipe w.files build with
    | (files, .error e) => some ({ w with files }.answer i (cleanAnswer (.error e)))
    | (files, .ok ()) => some ({ w with files }.setPhase i .remaking)
  | some .remaking =>
    let (files, outcome) := BuildDirectory.ensure w.files build
    some ({ w with files }.answer i (cleanAnswer outcome))
  | some (.launching action) =>
    match p.start w.files (p.arguments action) with
    | .error fault => some (w.answer i (spawnFailure action fault))
    | .ok course =>
      let w := w.setPhase i (.running action w.children.length)
      some { w with children := w.children ++ [⟨course, [], none⟩] }
  | some (.running action j) =>
    match w.children[j]? with
    | some ⟨_, written, some status⟩ => some (w.answer i (ending action written status))
    | _ => none
  | _ => none

/-- The next step of a child, if it has not ended. -/
def act (w : World) (j : Nat) : Option World :=
  match w.children[j]? with
  | some ⟨.exit status, written, none⟩ =>
    some { w with children := w.children.set j ⟨.exit status, written, some status⟩ }
  | some ⟨.act step next, written, none⟩ =>
    let (more, files) := step w.files
    some { w with
      files
      children := w.children.set j ⟨next w.files, written ++ more, none⟩ }
  | _ => none

/-- The client of a request goes away, if the request waits for something and depends on it. -/
def leave (w : World) (i : Nat) : Option World :=
  match w.requests[i]? with
  | some (.waiting (.build _)) | some (.running (.build _) _) => none
  | some (.waiting _) =>
    let w := w.setPhase i .dropped
    if w.holder = some i then some w.release else some { w with line := w.line.erase i }
  | some (.running _ _) => some (w.setPhase i .dropped).release
  | _ => none

inductive Move where
  | advance (request : Nat)
  | act (child : Nat)
  | leave (request : Nat)
  deriving DecidableEq, Repr

def step (p : Panel) (w : World) : Move → Option World
  | .advance i => w.advance p i
  | .act j => w.act j
  | .leave i => w.leave i

/-- A child goes to its end without anything in between. -/
def complete (w : World) (j : Nat) : World :=
  match w.children[j]? with
  | some ⟨course, written, none⟩ =>
    let (more, files, status) := course.run w.files
    { w with
      files
      children := w.children.set j ⟨.exit status, written ++ more, some status⟩ }
  | _ => w

/-- One round: the first request that can go on does; if there is none, the children go to their
ends. -/
def round (p : Panel) (w : World) : World :=
  match (List.range w.requests.length).findSome? (w.advance p) with
  | some w => w
  | none => (List.range w.children.length).foldl complete w

/-- Rounds until all requests are answered: none of them goes on more than six times, and none has
more than one child to wait for. -/
def settle (p : Panel) (w : World) : World :=
  (List.range (8 * w.requests.length)).foldl (fun w _ => round p w) w

/-- The answer to a request, if it has one. -/
def response? (w : World) (i : Nat) : Option Response :=
  match w.requests[i]? with
  | some (.answered response) => some response
  | _ => none

end World

/-- Serves requests side by side, with no client going away before its answer. -/
def respondTogether (p : Panel) (fs : FileSystem) (requests : List Request) :
    FileSystem × List (Option Response) :=
  let w := (World.start fs requests).settle p
  (w.files, (List.range requests.length).map w.response?)

end Panel

end BuildPanel
