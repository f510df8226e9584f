import BuildPanel.BuildDirectory
import BuildPanel.CommandLine.Arguments
import BuildPanel.Configuration

/-!
From the values on the command line to a configuration, and to a panel that listens. The address
must be one that a socket can be bound to, and the source tree must be there; its path is taken
without links and dots, because the build tool runs in another directory.
-/

namespace BuildPanel

namespace CommandLine

/-- Why values do not make a configuration. -/
inductive ConfigurationError where
  | address (host : String) (port : UInt16)
  | project (path : Path) (fault : Fault)
  deriving DecidableEq, Repr

/-- The text shown for values that do not make a configuration. -/
def ConfigurationError.message : ConfigurationError → String
  | address host port =>
    "invalid bind address: '" ++ host ++ ":" ++ toString port.toNat ++
      "': invalid socket address syntax"
  | project path fault =>
    "project root '" ++ path.display ++ "' does not exist: " ++ fault.message

def valueOf (values : Values) (s : Setting) : String :=
  (values.lookup s).getD (s.usual?.getD "")

/-- What is given on the command line. -/
structure Given where
  host : String
  port : UInt16
  project : Path
  settings : Option Path
  build : Option Path
  program : String

namespace Given

def ofValues (values : Values) : Given where
  host := valueOf values .host
  port := ((readPort (valueOf values .port)).toOption).getD 0
  project := Path.ofString (valueOf values .project)
  settings := (values.lookup .settings).map Path.ofString
  build := (values.lookup .build).map Path.ofString
  program := valueOf values .program

/-- The text that the address to listen on is read from. -/
def address (g : Given) : String :=
  g.host ++ ":" ++ toString g.port.toNat

def configuration (env : Environment) (fs : FileSystem) (g : Given) :
    Except ConfigurationError Configuration :=
  match SocketAddress.ofString? g.address with
  | none => .error (.address g.host g.port)
  | some address =>
    match fs.canonical g.project with
    | .error fault => .error (.project g.project fault)
    | .ok project =>
      let settings := g.settings.getD (project.join Configuration.settingsBelowProject)
      let build := g.build.getD env.buildDirectory
      .ok ⟨address, project, settings, build, g.program⟩

end Given

def configure (env : Environment) (fs : FileSystem) (values : Values) :
    Except ConfigurationError Configuration :=
  (Given.ofValues values).configuration env fs

end CommandLine

/-- Why a panel could not begin to listen. -/
inductive StartupError where
  | directory (error : BuildDirectory.DirectoryError)
  | address (address : SocketAddress) (fault : Fault)
  deriving DecidableEq

/-- The text shown for a panel that could not begin to listen: what failed, and why. -/
def StartupError.message : StartupError → String
  | directory error =>
    let fault := match error with
      | .create _ fault | .remove _ fault => fault
    "failed to prepare build directory: " ++ error.message ++ ": " ++ fault.message
  | address a fault =>
    "failed to bind HTTP listener on " ++ a.toText ++ ": " ++ fault.message

/-- Whether an address belongs to every machine: the loopback addresses, and the unspecified one. -/
def IpAddress.isEverywhere : IpAddress → Bool
  | .v4 a b c d => a = 127 || (a = 0 && b = 0 && c = 0 && d = 0)
  | .v6 groups _ => groups.toList.dropLast.all (· = 0) && groups.toList.getLastD 0 ≤ 1

namespace Configuration

/-- What stands in the way of a panel that is to listen: a build directory that cannot be made, or
an address that the machine does not have. -/
def startup (c : Configuration) (fs : FileSystem) : FileSystem × Option StartupError :=
  match BuildDirectory.ensure fs c.build with
  | (fs, .error e) => (fs, some (.directory e))
  | (fs, .ok ()) =>
    if c.address.ip.isEverywhere then (fs, none)
    else (fs, some (.address c.address .addressNotAvailable))

end Configuration

end BuildPanel
