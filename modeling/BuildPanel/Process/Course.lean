import BuildPanel.FileSystem.Basic

/-!
What a child process does from its start to its end. A child writes bytes and changes files in any
number of steps, each of which depends on the files it then finds, and exits. Standard output and
standard error are one stream, as the panel sees them.
-/

namespace BuildPanel

inductive ExitStatus where
  | code (n : Nat)
  | signal (n : Nat)
  deriving DecidableEq, Repr

namespace ExitStatus

def succeeded (s : ExitStatus) : Bool :=
  s = .code 0

/-- The exit code, unless a signal has ended the process. -/
def code? : ExitStatus → Option Nat
  | .code n => some n
  | .signal _ => none

end ExitStatus

/-- The course that a running process will take. Every course comes to an end, whatever files it
meets. -/
inductive Course where
  | exit (status : ExitStatus)
  /-- A step: what is written and what becomes of the files, and how the process goes on. Both are
  up to the files as they are before the step. -/
  | act (step : FileSystem → List UInt8 × FileSystem) (next : FileSystem → Course)

namespace Course

/-- The whole course without anything in between: all that is written, the files at the end, and
how it ends. -/
def run : Course → FileSystem → List UInt8 × FileSystem × ExitStatus
  | exit status, fs => ([], fs, status)
  | act step next, fs =>
    let (written, fs') := step fs
    let (later, fs'', status) := (next fs).run fs'
    (written ++ later, fs'', status)

/-- A course of one step that is computed from the files at its start. -/
def ofRun (whole : FileSystem → List UInt8 × FileSystem × ExitStatus) : Course :=
  .act (fun fs => let (written, fs', _) := whole fs; (written, fs'))
    fun fs => .exit (whole fs).2.2

theorem run_ofRun (whole : FileSystem → List UInt8 × FileSystem × ExitStatus) (fs : FileSystem) :
    (ofRun whole).run fs = whole fs := by
  simp [ofRun, run]

end Course

end BuildPanel
