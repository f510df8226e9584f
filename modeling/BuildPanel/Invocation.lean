import BuildPanel.Message
import BuildPanel.Text.Utf8

/-!
How the build tool is called, and the line that ends a build. Arguments are byte strings, because a
path need not be text.
-/

namespace BuildPanel

/-- How the build tool spells a truth value. -/
def switch (value : Bool) : String :=
  if value then "ON" else "OFF"

namespace Invocation

def define (name : String) (entry : OptionEntry) : List UInt8 :=
  Text.bytes ("-D" ++ name ++ "=" ++ switch entry.value)

/-- The arguments that configure a source tree: its path, then the options in their order. -/
def configure (source : List UInt8) (options : OptionSet) : List (List UInt8) :=
  source :: options.toList.map fun m => define m.1 m.2

/-- The arguments that build what has been configured. -/
def build : List (List UInt8) :=
  ["--build", ".", "--parallel"].map Text.bytes

/-- The text that ends the output of a build. -/
def sentinel (succeeded : Bool) : String :=
  if succeeded then "\nBuild completed successfully!\n" else "\nBuild failed with errors.\n"

end Invocation

end BuildPanel
