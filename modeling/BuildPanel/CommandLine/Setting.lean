import BuildPanel.Environment

/-!
What can be set on the command line: six settings, each by an option of its own or by a variable of
the environment, and what the help text tells about them.
-/

namespace BuildPanel

namespace CommandLine

inductive Setting where
  | host
  | port
  | project
  | settings
  | build
  | program
  deriving DecidableEq, Repr

namespace Setting

/-- All settings in the order of the help text. -/
def all : List Setting := [host, port, project, settings, build, program]

def option : Setting → String
  | host => "host"
  | port => "port"
  | project => "project-root"
  | settings => "settings-file"
  | build => "build-dir"
  | program => "cmake"

/-- The variable that gives a setting where its option does not. -/
def environment : Setting → String
  | host => "CMAKE_UI_HOST"
  | port => "CMAKE_UI_PORT"
  | project => "CMAKE_UI_PROJECT_ROOT"
  | settings => "CMAKE_UI_SETTINGS_FILE"
  | build => "CMAKE_UI_BUILD_DIR"
  | program => "CMAKE_UI_CMAKE"

def placeholder : Setting → String
  | host => "HOST"
  | port => "PORT"
  | project => "PROJECT_ROOT"
  | settings => "SETTINGS_FILE"
  | build => "BUILD_DIR"
  | program => "CMAKE_PROGRAM"

/-- The value of a setting that is not given, where there is one. -/
def usual? : Setting → Option String
  | host => some "127.0.0.1"
  | port => some "5000"
  | project => some "."
  | settings => none
  | build => none
  | program => some "cmake"

def purpose : Setting → String
  | host => "IP address to bind the HTTP server to"
  | port => "TCP port for the HTTP server"
  | project => "Directory containing the project's CMakeLists.txt"
  | settings => "Where the last chosen option values are saved"
  | build => "Out-of-source build directory"
  | program => "Build tool executable"

def description : Setting → List String
  | host => ["IP address to bind the HTTP server to.", "",
      "`127.0.0.1` keeps the tool local; use `0.0.0.0` to expose it on the LAN."]
  | s => [s.purpose]

/-- How a setting is written in messages. -/
def usage (s : Setting) : String :=
  "--" ++ s.option ++ " <" ++ s.placeholder ++ ">"

/-- Whether a setting's value is a path, which must not be empty. -/
def isPath : Setting → Bool
  | project | settings | build => true
  | _ => false

def ofOption? (name : String) : Option Setting :=
  all.find? (·.option = name)

/-- Where else a setting can come from: the variable with its value, and the usual value. -/
def sources (env : Environment) (s : Setting) : List String :=
  let fromEnvironment := "[env: " ++ s.environment ++ "=" ++ (env.get? s.environment).getD "" ++ "]"
  fromEnvironment :: (s.usual?.map fun v => "[default: " ++ v ++ "]").toList

end Setting

def programName : String := "cmake-config-web"

def version : String := programName ++ " 0.1.0\n"

def about : String := "Local web UI for CMake option configuration and builds"

def helpHead : String :=
  about ++ "\n\nUsage: " ++ programName ++ " [OPTIONS]\n\nOptions:\n"

def padded (width : Nat) (s : String) : String :=
  s ++ String.ofList (List.replicate (width - s.length) ' ')

/-- The help text in one line a setting. -/
def shortHelp (env : Environment) : String :=
  let width := ((Setting.all.map fun s => s.usage.length).max?).getD 0
  let line (short : String) (usage : String) (text : List String) :=
    "  " ++ padded 4 short ++ padded width usage ++ "  " ++ " ".intercalate text ++ "\n"
  helpHead ++
    String.join (Setting.all.map fun s => line "" s.usage (s.purpose :: s.sources env)) ++
    line "-h, " "--help" ["Print help (see more with '--help')"] ++
    line "-V, " "--version" ["Print version"]

def longHelp (env : Environment) : String :=
  let item (short : String) (usage : String) (text : List String) :=
    "  " ++ padded 4 short ++ usage ++ "\n" ++ String.join (text.map (padded 10 "" ++ · ++ "\n"))
  let items :=
    (Setting.all.map fun s => item "" s.usage (s.description ++ "" :: s.sources env)) ++
      [item "-h, " "--help" ["Print help (see a summary with '-h')"],
        item "-V, " "--version" ["Print version"]]
  helpHead ++ "\n".intercalate items

end CommandLine

end BuildPanel
