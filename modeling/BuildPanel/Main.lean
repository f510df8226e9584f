import BuildPanel.CommandLine.Configure
import BuildPanel.Panel.Endpoint
import BuildPanel.Process.Toolbox

/-!
The program: it reads the command line, prepares the build directory of a fresh machine and answers
requests from standard input. A request is a line with a method, a path and, if it has one, a JSON
body; the answer is its status and its body.
-/

namespace BuildPanel

namespace Main

def startingDirectory : String := "/work"

def relevant : List String :=
  ["TEMP", "HOME", "TMPDIR"] ++ CommandLine.Setting.all.map CommandLine.Setting.environment

def requestOf (line : String) : Http.Request :=
  let words := line.toList.splitOn ' '
  let body := List.intercalate [' '] (words.drop 2)
  { method := String.ofList (words.headD [])
    target := String.ofList (words.getD 1 [])
    contentType := some (Text.bytes "application/json")
    body := Text.encode body
    patience := none }

def shown (r : Http.Response) : String :=
  let body := match r.body with
    | .whole text => text
    | .chunks pieces => String.join pieces
  toString r.status ++ " " ++ body ++ "\n"

/-- Answers requests until the input ends. -/
partial def serve (panel : Panel) (fs : FileSystem) (input output : IO.FS.Stream) : IO Unit := do
  let line ← input.getLine
  if line.isEmpty then return
  let (fs, response) := panel.respond fs (requestOf (String.ofList (line.toList.filter (· ≠ '\n'))))
  output.putStr (shown response)
  output.flush
  serve panel fs input output

end Main

end BuildPanel

open BuildPanel in
/-- Reads the command line and serves the panel that it asks for. -/
def main (arguments : List String) : IO UInt32 := do
  let env ← Main.relevant.filterMapM fun name => do
    return (← IO.getEnv name).map fun value => (name, value)
  let fs := Toolbox.files Main.startingDirectory
  match CommandLine.read env arguments with
  | .error stop =>
    let message := stop.message env
    if stop.exitCode = 0 then IO.print message else IO.eprintln message
    return UInt32.ofNat stop.exitCode
  | .ok values =>
    match CommandLine.configure env fs values with
    | .error e =>
      IO.eprintln ("Error: " ++ e.message)
      return 1
    | .ok configuration =>
      match configuration.startup fs with
      | (_, some e) =>
        IO.eprintln ("Error: " ++ e.message)
        return 1
      | (fs, none) =>
        IO.println ("serving " ++ configuration.project.display ++ " on http://" ++
          configuration.address.toText ++ " (build dir " ++ configuration.build.display ++ ")")
        Main.serve ⟨configuration, Toolbox.machine⟩ fs (← IO.getStdin) (← IO.getStdout)
        return 0
