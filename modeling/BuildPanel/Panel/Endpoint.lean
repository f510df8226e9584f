import BuildPanel.BuildDirectory
import BuildPanel.Configuration
import BuildPanel.Declaration.File
import BuildPanel.Http.OptionsBody
import BuildPanel.Message
import BuildPanel.Output.Relay
import BuildPanel.Process.Machine
import BuildPanel.Settings

/-!
What the panel does for a request that has it to itself: the page, saving, cleaning, applying and
building. Each endpoint takes the files and gives the files and its answer; nothing else is kept
from one request to the next.
-/

namespace BuildPanel

/-- A panel: what it works with, and the machine it runs on. -/
structure Panel where
  configuration : Configuration
  machine : Machine

namespace Panel

open Http

def start (p : Panel) (fs : FileSystem) (arguments : List (List UInt8)) :
    Except SpawnFault Course :=
  p.machine.start fs p.configuration.build p.configuration.program arguments

/-- Runs the build tool to its end. What it has printed comes with how it ended. -/
def run (p : Panel) (fs : FileSystem) (arguments : List (List UInt8)) :
    FileSystem × Except SpawnFault (List UInt8 × ExitStatus) :=
  match p.start fs arguments with
  | .error fault => (fs, .error fault)
  | .ok course =>
    let (written, fs, status) := course.run fs
    (fs, .ok (written, status))

/-- The configuration page: the declared options with their saved values, and the build directory,
which is made if it can be. -/
def page (p : Panel) (fs : FileSystem) : FileSystem × Response :=
  let c := p.configuration
  match OptionSet.scanFile fs c.lists with
  | .error fault =>
    (fs, .plainText 500 (.whole ("Cannot read build configuration: " ++ fault.message ++ "\n")))
  | .ok scanned =>
    let options := scanned.merge (Settings.loadUsable fs c.settings)
    let (fs, _) := BuildDirectory.ensure fs c.build
    (fs, .html (Page.render options (BuildDirectory.status fs c.build)))

def saveAnswer (status : Nat) (response : SaveResponse) : Response :=
  .json status response.toJson

def save (p : Panel) (fs : FileSystem) (options : Except Rejection OptionSet) :
    FileSystem × Response :=
  match options with
  | .error rejection =>
    (fs, saveAnswer rejection.status ⟨.error, some rejection.reason⟩)
  | .ok options =>
    let (fs, saved) := Settings.save fs p.configuration.settings options
    (fs, saveAnswer 200 ⟨.ofSuccess saved.isOk, none⟩)

def cleanAnswer (outcome : Except BuildDirectory.DirectoryError Unit) : Response :=
  let response : CleanResponse :=
    match outcome with
    | .ok () => ⟨.success, "Build directory cleaned successfully"⟩
    | .error e => ⟨.error, e.message⟩
  .json 200 response.toJson

/-- Empties the build directory, which is made first if it is missing. -/
def clean (p : Panel) (fs : FileSystem) : FileSystem × Response :=
  match BuildDirectory.ensure fs p.configuration.build with
  | (fs, .error e) => (fs, cleanAnswer (.error e))
  | (fs, .ok ()) =>
    let (fs, outcome) := BuildDirectory.clean fs p.configuration.build
    (fs, cleanAnswer outcome)

def applyAnswer (status : Nat) (response : ApplyResponse) : Response :=
  .json status response.toJson

/-- The answer to applying that did not come to an end. -/
def applyFailure (message : String) : Response :=
  applyAnswer 200 ⟨.error, message⟩

/-- The answer to applying after the build tool has ended. -/
def applyEnding (output : List UInt8) (status : ExitStatus) : Response :=
  let captured := Output.Captured.ofEvents (Output.Stream.drain output status)
  applyAnswer 200 ⟨.ofSuccess captured.success, captured.output⟩

/-- What is told about options that could not be saved. -/
def saveFailure (fault : Settings.AccessFault) : String :=
  "Failed to save options: " ++ fault.message

def configureArguments (p : Panel) (options : OptionSet) : List (List UInt8) :=
  Invocation.configure p.configuration.project options

/-- Saves the options of a body and configures the source tree with them. -/
def apply (p : Panel) (fs : FileSystem) (options : Except Rejection OptionSet) :
    FileSystem × Response :=
  match options with
  | .error rejection => (fs, applyAnswer rejection.status ⟨.error, rejection.reason⟩)
  | .ok options =>
    match Settings.save fs p.configuration.settings options with
    | (fs, .error fault) => (fs, applyFailure (saveFailure fault))
    | (fs, .ok ()) =>
      match BuildDirectory.ensure fs p.configuration.build with
      | (fs, .error e) => (fs, applyFailure e.message)
      | (fs, .ok ()) =>
        match p.run fs (p.configureArguments options) with
        | (fs, .error fault) => (fs, applyFailure fault.message)
        | (fs, .ok (output, status)) => (fs, applyEnding output status)

/-- The chunks of a build for which nothing was started. -/
def failedChunks (message : String) : List String :=
  [message ++ "\n", Invocation.sentinel false]

/-- The answer to building, as far as the client stays for its chunks. -/
def buildAnswer (chunks : List String) : Response :=
  .plainText 200 (.chunks chunks)

/-- The answer to building when nothing was started. -/
def buildFailure (patience : Option Nat) (message : String) : Response :=
  let chunks := failedChunks message
  buildAnswer (chunks.take (patience.getD chunks.length))

def buildEnding (patience : Option Nat) (output : List UInt8) (status : ExitStatus) : Response :=
  buildAnswer (Output.Relay.chunks patience output status)

/-- Builds what has been configured. The build goes on to its end also for a client that goes
away. -/
def build (p : Panel) (fs : FileSystem) (patience : Option Nat) : FileSystem × Response :=
  match BuildDirectory.ensure fs p.configuration.build with
  | (fs, .error e) => (fs, buildFailure patience e.message)
  | (fs, .ok ()) =>
    match p.run fs Invocation.build with
    | (fs, .error fault) => (fs, buildFailure patience fault.message)
    | (fs, .ok (output, status)) => (fs, buildEnding patience output status)

inductive Endpoint where
  | page
  | save
  | clean
  | apply
  | build
  deriving DecidableEq, Repr

def Endpoint.ofPath? (path : String) : Option Endpoint :=
  [("/", Endpoint.page), ("/save", .save), ("/clean", .clean), ("/apply", .apply),
    ("/build", .build)].lookup path

def Endpoint.methods : Endpoint → List String
  | .page => ["GET", "HEAD"]
  | _ => ["POST"]

/-- Serves one request from its arrival to its answer, with nothing else going on. -/
def respond (p : Panel) (fs : FileSystem) (r : Request) : FileSystem × Response :=
  match Endpoint.ofPath? r.path with
  | none => (fs, .empty 404 none)
  | some endpoint =>
    if !endpoint.methods.contains r.method then
      (fs, .empty 405 (some (",".intercalate endpoint.methods)))
    else
      match endpoint with
      | .page =>
        let (fs, response) := p.page fs
        (fs, if r.method = "HEAD" then response.withoutBody else response)
      | .save => p.save fs r.options
      | .clean => p.clean fs
      | .apply => p.apply fs r.options
      | .build => p.build fs r.patience

end Panel

end BuildPanel
