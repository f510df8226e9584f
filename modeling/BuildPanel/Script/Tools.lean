import BuildPanel.Script.Expansion
import BuildPanel.Script.Format
import BuildPanel.Script.Test

/-!
The commands that a shell script can call and that run no script themselves: those of the shell and
a few small programs for files and text. Each takes the state and its words and gives the state, in
which it leaves its status.
-/

namespace BuildPanel.Script

namespace State

/-- Writes to the standard output; failing to is a command's failure. -/
def print (st : State) (command s : List Char) : State × Flow :=
  match st.write 1 s with
  | (st, true) => st.done 0
  | (st, false) => st.complainAt (command ++ ": ".toList ++ command ++ ": I/O error".toList) 1

/-- Writes to the standard output, whether it is open or not. -/
def put (st : State) (s : List Char) : State :=
  (st.write 1 s).1

def faulty (st : State) (message path : List Char) (fault : Fault) : State :=
  (st.complain (message ++ path ++ ": ".toList ++ fault.text.toList) 1).1

def quotedPath (p : List Char) : List Char :=
  '\'' :: p ++ ['\'']

end State

def natural? (w : List Char) : Option Nat :=
  if w ≠ [] ∧ w.all Char.isDigit then some (Nat.ofDigitChars 10 w 0) else none

/-! ### The shell's own commands -/

/-- Complaints about a command's words, then what it writes. -/
def printf (st : State) (words : List (List Char)) : State × Flow :=
  let run (format : List Char) (arguments : List (List Char)) : State × Flow :=
    let p := Format.printf .shell format (arguments.length + 1) arguments
    let st := p.complaints.foldl (fun st m => (st.complainAt ("printf: ".toList ++ m) 1).1) st
    match st.print "printf".toList p.text with
    | (st, flow) =>
      ({ st with status := if p.faulty then 2 else if p.complaints = [] then st.status else 1 },
        flow)
  match words with
  | [] | [['-', '-']] => st.complainAt "printf: usage: printf format [arg ...]".toList 2
  | ['-', '-'] :: format :: arguments => run format arguments
  | ('-' :: c :: rest) :: arguments =>
    if arguments = [] ∧ c = '-' then run ('-' :: c :: rest) arguments
    else st.complainAt ("printf: Illegal option -".toList ++ [c]) 2
  | format :: arguments => run format arguments

/-- Ends the script, with the status given or else with that of the last command. -/
def exit (st : State) (words : List (List Char)) : State × Flow :=
  match words with
  | [] => (st, .exit)
  | w :: _ =>
    match natural? w with
    | some n => ({ st with status := n % 256 }, .exit)
    | none => st.giveUp ("exit: Illegal number: ".toList ++ w) 2

def giveBack (st : State) (words : List (List Char)) : State × Flow :=
  match words with
  | [] => (st, .back)
  | w :: _ =>
    match natural? w with
    | some n => ({ st with status := n % 256 }, .back)
    | none => st.giveUp ("return: Illegal number: ".toList ++ w) 2

def shift (st : State) (words : List (List Char)) : State × Flow :=
  match natural? (words.head?.getD ['1']) with
  | none => st.giveUp ("shift: Illegal number: ".toList ++ words.head?.getD []) 2
  | some n =>
    if st.arguments.length < n then st.giveUp "shift: can't shift that many".toList 2
    else { st with arguments := st.arguments.drop n }.done 0

/-- The number of loops that a word gives, of which there have to be so many. -/
def loops (st : State) (words : List (List Char)) : Nat :=
  min ((words.head?.bind natural?).getD 1) st.loops

def test (st : State) (name : List Char) (words : List (List Char)) : State × Flow :=
  let bracket := name = ['[']
  if bracket ∧ words.getLast? ≠ some [']'] then st.complainAt "[: missing ]".toList 2
  else
    match Test.eval st (if bracket then words.dropLast else words) with
    | .ok b => st.done (if b then 0 else 1)
    | .error m => st.complainAt (name ++ ": ".toList ++ m) 2

def signals : List (String × Nat) :=
  [("EXIT", 0), ("HUP", 1), ("INT", 2), ("QUIT", 3), ("ILL", 4), ("TRAP", 5), ("ABRT", 6),
    ("BUS", 7), ("FPE", 8), ("KILL", 9), ("USR1", 10), ("SEGV", 11), ("USR2", 12), ("PIPE", 13),
    ("ALRM", 14), ("TERM", 15), ("CHLD", 17), ("CONT", 18), ("STOP", 19)]

def signal? (s : List Char) : Option Nat :=
  match natural? s with
  | some n => if n < 65 then some n else none
  | none =>
    let name := (String.ofList s).toUpper
    signals.lookup (String.ofList (if "SIG".toList.isPrefixOf name.toList then name.toList.drop 3
      else name.toList))

/-- What is said of a child that a signal has ended. -/
def epitaph? (signal : Nat) : Option String :=
  [(1, "Hangup"), (3, "Quit"), (4, "Illegal instruction"), (5, "Trace/breakpoint trap"),
    (6, "Aborted"), (7, "Bus error"), (8, "Floating point exception"), (9, "Killed"),
    (10, "User defined signal 1"), (11, "Segmentation fault"), (12, "User defined signal 2"),
    (14, "Alarm clock"), (15, "Terminated")].lookup signal

/-- The signals that do nothing to a process that has not asked for them. -/
def harmless : List Nat := [0, 17, 18, 23, 28]

def kill (st : State) (words : List (List Char)) : State × Flow :=
  let (signal, targets) := match words with
    | ['-', 's'] :: s :: rest => (signal? s, rest)
    | ('-' :: s) :: rest => (signal? s, rest)
    | rest => (some 15, rest)
  match signal, targets with
  | none, _ =>
    st.complainAt ("kill: Illegal option -".toList ++ ((words.head?.getD []).drop 1).take 1) 2
  | some _, [] =>
    st.complainAt ("kill: Usage: kill [-s sigspec | -signum | -sigspec] [pid | job]... or\n" ++
      "kill -l [exitstatus]").toList 2
  | some n, target :: _ =>
    if natural? target = some st.process then
      if harmless.contains n then st.done 0 else ({ st with status := 0 }, .killed n)
    else if (natural? target).isNone then
      st.complainAt ("kill: Illegal number: ".toList ++ target) 2
    else
      let st := (st.complainAt "kill: No such process".toList 1).1
      st.complain [] 1

def trap (st : State) (words : List (List Char)) : State × Flow :=
  let set (st : State) (action : Option (List Char)) (s : List Char) : State :=
    match signal? s with
    | none => (st.complainAt ("trap: ".toList ++ s ++ ": bad trap".toList) 1).1
    | some n =>
      let others := st.traps.filter (·.1 ≠ n)
      { st with traps := (action.map (n, ·)).toList ++ others }
  let st := { st with status := 0 }
  match words with
  | [] => (st, .on)
  | ['-'] :: signals => (signals.foldl (set · none) st, .on)
  | [s] => (set st none s, .on)
  | action :: signals => (signals.foldl (set · (some action)) st, .on)

def set (st : State) : List (List Char) → State × Flow
  | [] => st.done 0
  | ['-', '-'] :: words => { st with arguments := words }.done 0
  | ('-' :: c :: letters) :: words =>
    let letters := c :: letters
    let st := { st with
      strict := st.strict || letters.contains 'e'
      demanding := st.demanding || letters.contains 'u' }
    set st words
  | ('+' :: letters) :: words =>
    let st := { st with
      strict := st.strict && !letters.contains 'e'
      demanding := st.demanding && !letters.contains 'u' }
    set st words
  | words => { st with arguments := words }.done 0

/-- Gives a variable the value that a word holds after its first `=`, if it has one. -/
def assignPair (st : State) (word : List Char) : State :=
  let name := word.takeWhile (· ≠ '=')
  match word.drop name.length with
  | _ :: value => st.assign name value
  | [] => st

def exportAll (st : State) (words : List (List Char)) : State × Flow :=
  let st := words.foldl assignPair st
  let names := words.map fun (w : List Char) => w.takeWhile (· ≠ '=')
  { st with exported := names ++ st.exported }.done 0

/-- Gives variables values that they have until the end of the function. -/
def makeLocal (st : State) (words : List (List Char)) : State × Flow :=
  match st.locals with
  | none => st.giveUp "local: not in a function".toList 2
  | some others =>
    let names := words.map fun (w : List Char) => w.takeWhile (· ≠ '=')
    (words.foldl assignPair { st with locals := some (names ++ others) }).done 0

/-- Gives the words of a line to variables; the last one takes all that is left. -/
def assignWords (st : State) : List (List Char) → List Char → State
  | [], _ => st
  | [name], s => st.assign name (s.reverse.dropWhile isSplitter).reverse
  | name :: names, s =>
    let word := s.takeWhile fun c => !isSplitter c
    assignWords (st.assign name word) names ((s.drop word.length).dropWhile isSplitter)

/-- A text without the backslashes that stand before other characters. -/
def unescaped : List Char → List Char
  | '\\' :: c :: s => c :: unescaped s
  | c :: s => c :: unescaped s
  | [] => []

def read (st : State) (words : List (List Char)) : State × Flow :=
  let names := words.filter fun n => n.head? ≠ some '-'
  if names = [] then st.complainAt "read: arg count".toList 2
  else
    let text := st.input.takeWhile (· ≠ '\n')
    let rest := st.input.drop text.length
    let text := if words.contains ['-', 'r'] then text else unescaped text
    let st := assignWords { st with input := rest.drop 1 } names (text.dropWhile isSplitter)
    st.done (if rest.isEmpty then 1 else 0)

def cd (st : State) (words : List (List Char)) : State × Flow :=
  let here (st : State) : List Char := ofBytes (FileSystem.pathOf st.files.here)
  let go (p : List Char) : State × Flow :=
    match st.files.find (State.path p) with
    | .ok place =>
      if st.files.get place = some .directory then
        ({ st with files := st.files.enter place }.assign "OLDPWD".toList (here st)).done 0
      else st.complainAt ("cd: can't cd to ".toList ++ p) 2
    | .error _ => st.complainAt ("cd: can't cd to ".toList ++ p) 2
  match words.head? with
  | none => st.done 0
  | some ['-'] =>
    let p := st.value "OLDPWD".toList
    match if p = [] then st.done 0 else go p with
    | (st, flow) => if st.status = 0 then (st.put (here st ++ ['\n']), flow) else (st, flow)
  | some [] => st.done 0
  | some p => go p

/-! ### Programs for files and text -/

def cat (st : State) (paths : List (List Char)) : State × Flow :=
  let copy (st : State) (p : List Char) : State :=
    if p = ['-'] then { st.put st.input with input := [] }
    else if p = State.void then st
    else
      match st.files.read (State.path p) with
      | .ok contents => st.put (ofBytes contents)
      | .error fault => st.faulty "cat: ".toList p fault
  (paths.foldl copy { st with status := 0 }, .on)

def ls (st : State) (words : List (List Char)) : State × Flow :=
  let options := (words.filter (·.head? = some '-')).flatten
  let paths := words.filter (·.head? ≠ some '-')
  let all := options.contains 'A' || options.contains 'a'
  let shown := if paths = [] then [['.']] else paths
  let isListed (p : List Char) : Bool :=
    !options.contains 'd' && st.entry? p = some .directory
  let complain (st : State) (p : List Char) : State :=
    match st.files.find (State.path p) with
    | .error fault => { st.faulty "ls: cannot access ".toList (State.quotedPath p) fault with
        status := 2 }
    | .ok _ => st
  let contents (p : List Char) : List Char :=
    match st.files.find (State.path p) with
    | .error _ => []
    | .ok place =>
      let names := (st.files.list place).map ofBytes
      let dots := if options.contains 'a' then [['.'], ['.', '.']] else []
      let names := dots ++ names.filter fun n => all || n.head? ≠ some '.'
      names.flatMap (· ++ ['\n'])
  let block (p : List Char) : List Char :=
    if shown.length = 1 then contents p else p ++ ":\n".toList ++ contents p
  let others := (shown.filter fun p => (st.entry? p).isSome && !isListed p).flatMap (· ++ ['\n'])
  let blocks := (if others = [] then [] else [others]) ++ (shown.filter isListed).map block
  let after := shown.foldl complain { st with status := 0 }
  (after.put (List.intercalate ['\n'] blocks), .on)

def mkdir (st : State) (words : List (List Char)) : State × Flow :=
  let parents := words.contains ['-', 'p']
  let make (st : State) (p : List Char) : State :=
    let complaint := "mkdir: cannot create directory ".toList
    if parents then
      match st.files.makeDirectories (State.path p) with
      | (files, .ok ()) => { st with files }
      | (files, .error fault) => { st with files }.faulty complaint (State.quotedPath p) fault
    else
      match st.files.makeDirectory (State.path p) with
      | .ok files => { st with files }
      | .error fault => st.faulty complaint (State.quotedPath p) fault
  ((words.filter (·.head? ≠ some '-')).foldl make { st with status := 0 }, .on)

/-- Removes files, and directories if it is asked to. -/
def rm (st : State) (words : List (List Char)) : State × Flow :=
  let options := (words.filter (·.head? = some '-')).flatten
  let force := options.contains 'f'
  let recursive := options.contains 'r' || options.contains 'R'
  let remove (st : State) (p : List Char) : State :=
    let complaint := "rm: cannot remove ".toList
    let outcome : Except Fault FileSystem :=
      match st.files.unlink (State.path p) with
      | .error .isDirectory =>
        if recursive then
          match st.files.removeAll (State.path p) with
          | (files, .ok ()) => .ok files
          | (_, .error fault) => .error fault
        else .error .isDirectory
      | outcome => outcome
    match outcome with
    | .ok files => { st with files }
    | .error .notFound =>
      if force then st else st.faulty complaint (State.quotedPath p) .notFound
    | .error fault => st.faulty complaint (State.quotedPath p) fault
  ((words.filter (·.head? ≠ some '-')).foldl remove { st with status := 0 }, .on)

def rmdir (st : State) (paths : List (List Char)) : State × Flow :=
  let remove (st : State) (p : List Char) : State :=
    match st.files.removeDirectory (State.path p) with
    | .ok files => { st with files }
    | .error fault => st.faulty "rmdir: failed to remove ".toList (State.quotedPath p) fault
  (paths.foldl remove { st with status := 0 }, .on)

def touch (st : State) (paths : List (List Char)) : State × Flow :=
  let make (st : State) (p : List Char) : State :=
    match st.files.append (State.path p) [] with
    | .ok files => { st with files }
    | .error .isDirectory => st
    | .error fault => st.faulty "touch: cannot touch ".toList (State.quotedPath p) fault
  (paths.foldl make { st with status := 0 }, .on)

/-- Whether a mode lets a file be run, given whether it could be run before. -/
def mayBeRun (before : Bool) (mode : List Char) : Bool :=
  match natural? mode with
  | some _ => mode.any fun c => c = '7' ∨ c = '5' ∨ c = '3' ∨ c = '1'
  | none =>
    if !mode.contains 'x' then before && !mode.contains '=' else !mode.contains '-'

def chmod (st : State) (words : List (List Char)) : State × Flow :=
  let change (mode : List Char) (st : State) (p : List Char) : State :=
    match st.files.find (State.path p) with
    | .error fault => st.faulty "chmod: cannot access ".toList (State.quotedPath p) fault
    | .ok place =>
      match st.files.get place with
      | some (.file contents runnable) =>
        { st with files := st.files.put place (.file contents (mayBeRun runnable mode)) }
      | _ => st
  match words with
  | mode :: paths => (paths.foldl (change mode) { st with status := 0 }, .on)
  | [] => st.done 1

def ln (st : State) (words : List (List Char)) : State × Flow :=
  match words.filter (·.head? ≠ some '-') with
  | [target, p] =>
    match st.files.makeLink (State.path p) (State.path target) with
    | .ok files => { st with files }.done 0
    | .error fault =>
      (st.faulty "ln: failed to create symbolic link ".toList (State.quotedPath p) fault, .on)
  | _ => st.done 1

def lastName (p : List Char) : List Char :=
  match (p.reverse.dropWhile (· = '/')).takeWhile (· ≠ '/') with
  | [] => p.take 1
  | name => name.reverse

def withoutLastName (p : List Char) : List Char :=
  let above := (p.reverse.dropWhile (· = '/')).dropWhile (· ≠ '/')
  match above.dropWhile (· = '/') with
  | [] => if above = [] then ['.'] else ['/']
  | name => name.reverse

/-- Copies or moves a file to a path, or into a directory. -/
def transfer (st : State) (command : String) (keep : Bool) (words : List (List Char)) :
    State × Flow :=
  match words.filter (·.head? ≠ some '-') with
  | [source, p] =>
    let p := if st.entry? p = some .directory then p ++ '/' :: lastName source else p
    match st.files.read (State.path source) with
    | .error fault =>
      (st.faulty (command ++ ": cannot stat ").toList (State.quotedPath source) fault, .on)
    | .ok contents =>
      match st.files.write (State.path p) contents with
      | .error fault =>
        (st.faulty (command ++ ": cannot create regular file ").toList (State.quotedPath p) fault,
          .on)
      | .ok files =>
        if keep then { st with files }.done 0
        else
          match files.unlink (State.path source) with
          | .ok files => { st with files }.done 0
          | .error fault => (st.faulty "mv: cannot remove ".toList source fault, .on)
  | _ => st.done 1

/-- What a program reads: a file, or the input if no path is given. -/
def source (st : State) (command : String) (paths : List (List Char)) :
    Except State (List Char × State) :=
  match paths with
  | [] | [['-']] => .ok (st.input, { st with input := [] })
  | p :: _ =>
    if p = State.void then .ok ([], st)
    else
      match st.files.read (State.path p) with
      | .ok contents => .ok (ofBytes contents, st)
      | .error fault =>
        let message := command ++ ": cannot open '" ++ String.ofList p ++ "' for reading"
        .error (st.faulty message.toList [] fault)

/-- A count of lines, or of characters, and the paths. -/
def countAndPaths (words : List (List Char)) : Bool × Nat × List (List Char) :=
  match words with
  | ['-', 'n'] :: n :: paths => (true, (natural? n).getD 10, paths)
  | ['-', 'c'] :: n :: paths => (false, (natural? n).getD 10, paths)
  | ('-' :: 'n' :: n) :: paths => (true, (natural? n).getD 10, paths)
  | ('-' :: 'c' :: n) :: paths => (false, (natural? n).getD 10, paths)
  | ('-' :: n) :: paths => (true, (natural? n).getD 10, paths)
  | paths => (true, 10, paths)

def textLines : List Char → List (List Char)
  | [] => []
  | c :: s =>
    if c = '\n' then [c] :: textLines s
    else
      match textLines s with
      | [] => [[c]]
      | line :: rest => (c :: line) :: rest

/-- Writes the beginning or the end of what it reads. -/
def part (st : State) (command : String) (atEnd : Bool) (words : List (List Char)) :
    State × Flow :=
  let (lines, n, paths) := countAndPaths words
  match source st command paths with
  | .error st => (st, .on)
  | .ok (s, st) =>
    let units := if lines then textLines s else s.map ([·])
    (st.put (if atEnd then units.drop (units.length - n) else units.take n).flatten).done 0

def wc (st : State) (words : List (List Char)) : State × Flow :=
  let paths := words.filter (·.head? ≠ some '-')
  match source st "wc" paths with
  | .error st => (st, .on)
  | .ok (s, st) =>
    let n :=
      if words.contains ['-', 'l'] then s.count '\n'
      else if words.contains ['-', 'w'] then ((s.splitOnP isSplitter).filter (· ≠ [])).length
      else s.length
    let name := (paths.head?.map (' ' :: ·)).getD []
    (st.put (State.number n ++ name ++ ['\n'])).done 0

def tee (st : State) (words : List (List Char)) : State × Flow :=
  let s := st.input
  let save (st : State) (p : List Char) : State :=
    match st.files.write (State.path p) (toBytes s) with
    | .ok files => { st with files }
    | .error fault => st.faulty "tee: ".toList p fault
  let st := { st with input := [], status := 0 }.put s
  ((words.filter (·.head? ≠ some '-')).foldl save st, .on)

def seq (st : State) (words : List (List Char)) : State × Flow :=
  match words.mapM Arithmetic.decimal? with
  | some [last] => go 1 1 last
  | some [first, last] => go first 1 last
  | some [first, step, last] => go first step last
  | _ => st.done 1
where
  go (first step last : Int) : State × Flow :=
    let count := if step = 0 then 0 else ((last - first) / step + 1).toNat
    let numbers := (List.range count).map fun (i : Nat) => first + step * (i : Int)
    (st.put (numbers.flatMap fun n => (toString n).toList ++ ['\n'])).done 0

/-- Formats as the program does that is no command of the shell. -/
def printfProgram (st : State) (words : List (List Char)) : State × Flow :=
  match words with
  | [] =>
    st.complain "printf: missing operand\nTry 'printf --help' for more information.".toList 1
  | format :: arguments =>
    let p := Format.printf .program format (arguments.length + 1) arguments
    let complain (st : State) (m : List Char) : State :=
      (st.complain ("printf: ".toList ++ m) 0).1
    let st := (p.complaints.foldl complain st).put p.text
    let st :=
      match p.left with
      | first :: _ =>
        if p.stop then st
        else
          complain st ("warning: ignoring excess arguments, starting with '".toList ++ first ++
            ['\''])
      | [] => st
    st.done (if p.complaints = [] then 0 else 1)

def programs : List String :=
  ["echo", "printf", "true", "false", "pwd", "cat", "ls", "mkdir", "rm", "rmdir", "touch", "chmod",
    "ln", "cp", "mv", "head", "tail", "wc", "tee", "seq", "basename", "dirname", "sleep", "sync"]

/-- What programs call the words that they cannot do without. -/
def operand? (name : String) : Option String :=
  [("cp", "file operand"), ("mv", "file operand"), ("ln", "file operand"),
    ("touch", "file operand"), ("mkdir", "operand"), ("rm", "operand"), ("rmdir", "operand"),
    ("chmod", "operand"), ("basename", "operand"), ("dirname", "operand"), ("sleep", "operand"),
    ("seq", "operand")].lookup name

def runProgram? (st : State) (name : String) (words : List (List Char)) :
    Option (State × Flow) :=
  match name with
  | "echo" => some ((st.put (Format.programEcho words)).done 0)
  | "printf" => some (printfProgram st words)
  | "true" | "sleep" | "sync" => some (st.done 0)
  | "false" => some (st.done 1)
  | "pwd" => some ((st.put (ofBytes (FileSystem.pathOf st.files.here) ++ ['\n'])).done 0)
  | "cat" => some (cat st (if words = [] then [['-']] else words))
  | "ls" => some (ls st words)
  | "mkdir" => some (mkdir st words)
  | "rm" => some (rm st words)
  | "rmdir" => some (rmdir st words)
  | "touch" => some (touch st words)
  | "chmod" => some (chmod st words)
  | "ln" => some (ln st words)
  | "cp" => some (transfer st "cp" true words)
  | "mv" => some (transfer st "mv" false words)
  | "head" => some (part st "head" false words)
  | "tail" => some (part st "tail" true words)
  | "wc" => some (wc st words)
  | "tee" => some (tee st words)
  | "seq" => some (seq st words)
  | "basename" => some ((st.put (lastName (words.head?.getD []) ++ ['\n'])).done 0)
  | "dirname" => some ((st.put (withoutLastName (words.head?.getD []) ++ ['\n'])).done 0)
  | _ => none

/-- What machine code begins with. A program's name follows. -/
def codeMark : List UInt8 :=
  toBytes ('\x7f' :: "ELF ".toList)

def code (program : String) : List UInt8 :=
  codeMark ++ toBytes program.toList

def codedProgram? (bytes : List UInt8) : Option String :=
  if codeMark.isPrefixOf bytes then
    some (String.ofList (ofBytes (bytes.drop codeMark.length)))
  else none

/-- Runs a program by its name, unless it lacks words that it needs. -/
def program? (st : State) (name : String) (words : List (List Char)) : Option (State × Flow) :=
  match operand? name with
  | some operand =>
    if words.all (·.head? = some '-') ∧ !words.contains ['-', 'f'] then
      some (st.complain (name ++ ": missing " ++ operand ++ "\nTry '" ++ name ++
        " --help' for more information.").toList 1)
    else runProgram? st name words
  | none => runProgram? st name words

/-- Whether a command is the shell's own and one whose failure to be connected ends the script. -/
def isSpecialCommand (name : List Char) : Bool :=
  [":", ".", "break", "continue", "eval", "exec", "exit", "export", "readonly", "return", "set",
    "shift", "times", "trap", "unset"].contains (String.ofList name)

/-- Runs a command of the shell by its name. Commands that change how the shell treats modes and
limits do nothing that a script could tell. -/
def builtin? (st : State) (name : List Char) (words : List (List Char)) : Option (State × Flow) :=
  match String.ofList name with
  | ":" | "true" | "ulimit" | "hash" => some (st.done 0)
  | "umask" => some (if words = [] then st.print name "0022\n".toList else st.done 0)
  | "false" => some (st.done 1)
  | "echo" => some (st.print name (Format.shellEcho words))
  | "printf" => some (printf st words)
  | "exit" => some (exit st words)
  | "return" => some (giveBack st words)
  | "shift" => some (shift st words)
  | "break" => some (if st.loops = 0 then st.done 0 else (st, .leave (loops st words)))
  | "continue" => some (if st.loops = 0 then st.done 0 else (st, .again (loops st words)))
  | "test" | "[" => some (test st name words)
  | "kill" => some (kill st words)
  | "trap" => some (trap st words)
  | "set" => some (set st words)
  | "export" | "readonly" => some (exportAll st words)
  | "local" => some (makeLocal st words)
  | "unset" =>
    some ({ st with bindings := st.bindings.filter fun b => !words.contains b.1 }.done 0)
  | "read" => some (read st words)
  | "cd" => some (cd st words)
  | "pwd" => some (st.print name (ofBytes (FileSystem.pathOf st.files.here) ++ ['\n']))
  | _ => none

end BuildPanel.Script
