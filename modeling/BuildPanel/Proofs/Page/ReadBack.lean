import BuildPanel.Proofs.Options.Merging
import BuildPanel.Proofs.Page.Inputs

/-!
The whole page read back: the options from its checkboxes, and the state of the build directory from
the line that names it. So a page tells what it was made from, whatever the names, descriptions and
paths are, and no two pages are the same unless they were made from the same.
-/

namespace BuildPanel

namespace Html

variable {opening closing p q : List Char}

/-- The text between the next place of one mark and the place of another one behind it, and the
text behind that. -/
def between? (opening closing s : List Char) : Option (List Char × List Char) := do
  let s ← after? opening s
  let rest ← after? closing s
  return (s.take (s.length - (closing.length + rest.length)), rest)

end Html

namespace Page

open Html

/-! ### The build directory -/

/-- What stands in front of the path of the build directory. -/
def directoryMark : List Char :=
  "Build directory:".toList

def codeMark : List Char :=
  ['<', 'c', 'o', 'd', 'e', '>']

def codeEnd : List Char :=
  ['<', '/', 'c', 'o', 'd', 'e', '>']

/-- The build directory as a page shows it: its path with characters for entities, and whether the
next parentheses say that it exists. -/
def directory? (s : List Char) : Option BuildStatus := do
  let s ← after? directoryMark s
  let (path, s) ← between? codeMark codeEnd s
  let (state, _) ← between? ['('] [')'] s
  return ⟨state = "exists".toList, String.ofList (unescape path)⟩

/-- What the script of a page collects: what each checkbox shows is assigned to its name, one
checkbox after another. -/
def collected (s : List Char) : OptionSet :=
  .ofList (inputs s)

/-- A page tells what it was made from. -/
structure Tells (s : List Char) (options : OptionSet) (status : BuildStatus) : Prop where
  inputs : inputs s = options.toList
  collected : collected s = options
  directory : directory? s = some status

theorem Tells.unique {s : List Char} {options options' : OptionSet} {status status' : BuildStatus}
    (h : Tells s options status) (h' : Tells s options' status') :
    options = options' ∧ status = status' :=
  ⟨h.collected.symm.trans h'.collected, Option.some.inj (h.directory.symm.trans h'.directory)⟩

end Page

end BuildPanel
