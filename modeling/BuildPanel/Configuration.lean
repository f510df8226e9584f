import BuildPanel.Address
import BuildPanel.Path

/-!
What one panel works with: the address it listens on, the source tree, where its settings are kept,
where it builds and with what program.
-/

namespace BuildPanel

/-- The settings of one panel. -/
structure Configuration where
  address : SocketAddress
  project : Path
  /-- The file of the settings snapshot. -/
  settings : Path
  build : Path
  program : String
  deriving DecidableEq

namespace Configuration

/-- Where the settings are kept below the source tree. -/
def settingsBelowProject : Path :=
  Path.ofString "cmake_config_tool/cmake_config.toml"

def listsName : Path :=
  Path.ofString "CMakeLists.txt"

/-- The build tool unless another one is asked for. -/
def usualProgram : String :=
  "cmake"

/-- The settings for a source tree and a build directory, all else as usual. -/
def forProject (project build : Path) : Configuration where
  address := ⟨.v4 127 0 0 1, 5000⟩
  project
  settings := project.join settingsBelowProject
  build
  program := usualProgram

def lists (c : Configuration) : Path :=
  c.project.join listsName

end Configuration

end BuildPanel
