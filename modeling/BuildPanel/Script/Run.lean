import BuildPanel.Process.Course
import BuildPanel.Script.Connect
import BuildPanel.Script.Tools

/-!
Running shell scripts. A script is run for a limited depth of steps; one that goes on is killed.

Before a command is run, its words are prepared: everything in them that has to be run or computed
is replaced by its outcome. The text of a script is read and run one line at a time.
-/

namespace BuildPanel.Script

/-- What is made of something; or how the script ends on the way. -/
abbrev Prepared := Except (State × Flow)

/-- What a script that goes on for too long is ended with. -/
def exhausted : Nat := 24

def filledIn (quoted : Bool) (s : List Char) : Word :=
  if quoted then [.text s true] else [.filled s]

def withoutLineEnds (s : List Char) : List Char :=
  (s.reverse.dropWhile (· = '\n')).reverse

/-- A word that is filled in for a parameter: text that is not quoted is split. -/
def asValue (w : Word) : Word :=
  w.map fun
    | .text s false => .filled s
    | p => p

/-- What `type` says of a name; the flag tells whether it is the path of a program. -/
def State.kind? (st : State) (name : List Char) : Option (Bool × String) :=
  let s := String.ofList name
  if reservedWords.contains s then some (false, "a shell keyword")
  else if (st.functions.lookup name).isSome then some (false, "a shell function")
  else if (["eval", ".", "exec", "command", "type", "wait"].contains s
      ∨ (builtin? st name []).isSome) then
    some (false, "a shell builtin")
  else if name.contains '/' then
    if (st.entry? name).any Test.isRunnable then some (true, s) else none
  else if s = "sh" ∨ programs.contains s then some (true, "/usr/bin/" ++ s)
  else none

structure Start where
  name : List Char
  arguments : List (List Char)
  text : List Char
  options : List Char
  fromInput : Bool

/-- The letters of the options before other arguments, and those. -/
def splitOptions : List (List Char) → List Char × List (List Char)
  | ['-'] :: rest | ['-', '-'] :: rest => ([], rest)
  | ('-' :: c :: letters) :: rest =>
    let (others, rest) := splitOptions rest
    (c :: letters ++ others, rest)
  | arguments => ([], arguments)

def State.startOf (st : State) (arguments : List (List Char)) : Except (List Char) Start :=
  let shell : List Char := "sh".toList
  let refuse (message : List Char) := .error ("sh: 0: ".toList ++ message)
  let (options, rest) := splitOptions arguments
  match options.find? fun c => !"abcefhimnpsuvxC".toList.contains c, rest with
  | some c, _ => refuse ("Illegal option -".toList ++ [c])
  | none, [] =>
    if options.contains 'c' then refuse "-c requires an argument".toList
    else .ok ⟨shell, [], st.input, options, true⟩
  | none, first :: rest =>
    if options.contains 'c' then .ok ⟨rest.head?.getD shell, rest.drop 1, first, options, false⟩
    else
      match st.files.read (State.path first) with
      | .ok contents => .ok ⟨first, rest, ofBytes contents, options, false⟩
      | .error .isDirectory => .ok ⟨first, rest, [], options, false⟩
      | .error fault => refuse (State.cannotOpen first fault)

/-- The state in which a shell that a script calls begins. It knows the variables that programs are
told of. -/
def State.child (st : State) (name : List Char) (arguments : List (List Char)) : State :=
  { st with
    bindings := st.bindings.filter (st.exported.contains ·.1)
    functions := []
    locals := none
    jobs := []
    name
    arguments
    process := st.process + 1
    line := 1
    context := []
    status := 0
    traps := []
    loops := 0
    strict := false
    demanding := false
    tested := false }

/-- What becomes of a command's end if failures end the script: it ends, unless the failure is
looked at. -/
def State.checked (before : State) (outcome : State × Flow) : State × Flow :=
  let (st, flow) := outcome
  (st, if flow = .on ∧ st.strict ∧ !before.tested ∧ st.status ≠ 0 then .exit else flow)

def Command.isSkip : Command → Bool
  | .skip => true
  | _ => false

mutual

def State.prepareWord : (limit : Nat) → Word → State → Prepared (Word × State)
  | 0, _, st => .error (st, .killed exhausted)
  | _, [], st => .ok ([], st)
  | limit + 1, p :: ps, st => do
    let (w, st) ← State.preparePiece limit p st
    let (rest, st) ← State.prepareWord limit ps st
    return (w ++ rest, st)

def State.preparePiece : (limit : Nat) → Piece → State → Prepared (Word × State)
  | 0, _, st => .error (st, .killed exhausted)
  | _, .text s quoted, st => .ok ([.text s quoted], st)
  | _, .filled s, st => .ok ([.filled s], st)
  | _, .parameter name quoted, st =>
    if name = ['@'] then .ok ([.parameter name quoted], st)
    else if st.demanding ∧ name ≠ ['*'] ∧ (st.value? name).isNone then
      .error (st.giveUp (name ++ ": parameter not set".toList) 2)
    else .ok (filledIn quoted (st.value name), st)
  | limit + 1, .output script quoted, st =>
    let taker := st.takers
    let inner := { st with takers := taker + 1 }.connect 1 (.captured taker)
    let (inner, flow) := State.subshell limit (.script script) inner
    let (s, inner) := inner.take taker
    let st := { st.afterSubshell inner with status := st.status, filled := inner.status }
    match flow with
    | .on => .ok (filledIn quoted (withoutLineEnds s), st)
    | flow => .error (st, flow)
  | limit + 1, .arithmetic e quoted, st => do
    let (w, st) ← State.prepareWord limit (looseWord e) st
    match Arithmetic.eval st.value (st.text w) with
    | .ok (n, values) =>
      let st := values.foldl (fun st v => st.assign v.1 (toString v.2).toList) st
      return (filledIn quoted (toString n).toList, st)
    | .error message => throw (st.giveUp message 2)
  | limit + 1, .modified name operator operand quoted, st =>
    let value := st.value? name
    let colon := operator.head? = some ':'
    let isSet := if colon then value.any (· ≠ []) else value.isSome
    let operandOf (st : State) : Prepared (Word × State) := do
      let (w, st) ← State.prepareWord limit
        (if quoted then quotedOperand operand else operandWord operand) st
      return (asValue w, st)
    let pattern (atEnd longest : Bool) : Prepared (Word × State) := do
      let (w, st) ← State.prepareWord limit (operandWord operand) st
      return (filledIn quoted (without atEnd longest (st.whole w) (value.getD [])), st)
    match String.ofList operator with
    | "length" => .ok (filledIn quoted (State.number (value.getD []).length), st)
    | "-" | ":-" => if isSet then .ok (filledIn quoted (value.getD []), st) else operandOf st
    | "+" | ":+" => if isSet then operandOf st else .ok ([], st)
    | "=" | ":=" =>
      if isSet then .ok (filledIn quoted (value.getD []), st)
      else do
        let (w, st) ← operandOf st
        return (filledIn quoted (st.text w), st.assign name (st.text w))
    | "?" | ":?" =>
      if isSet then .ok (filledIn quoted (value.getD []), st)
      else do
        let (w, st) ← operandOf st
        let usual := if colon then "parameter not set or null" else "parameter not set"
        let message := if operand = [] then usual.toList else st.text w
        throw (st.giveUp (name ++ ": ".toList ++ message) 2)
    | "%" => pattern true false
    | "%%" => pattern true true
    | "#" => pattern false false
    | "##" => pattern false true
    | _ => .error (st.giveUp "Bad substitution".toList 2)

def State.prepareWords : (limit : Nat) → List Word → State → Prepared (List Word × State)
  | 0, _, st => .error (st, .killed exhausted)
  | _, [], st => .ok ([], st)
  | limit + 1, w :: ws, st => do
    let (w, st) ← State.prepareWord limit w st
    let (ws, st) ← State.prepareWords limit ws st
    return (w :: ws, st)

def State.assignAll : (limit : Nat) → List (List Char × Word) → State → Prepared State
  | 0, _, st => .error (st, .killed exhausted)
  | _, [], st => .ok st
  | limit + 1, (name, w) :: rest, st => do
    let (w, st) ← State.prepareWord limit w st
    State.assignAll limit rest (st.assign name (st.text w))

/-- Connects descriptors one after another; the first failure ends the command. -/
def State.redirectAll : (limit : Nat) → List Redirect → State → Prepared State
  | 0, _, st => .error (st, .killed exhausted)
  | _, [], st => .ok st
  | limit + 1, (descriptor, r) :: rest, st => do
    let (w, st) ← State.prepareWord limit r.word st
    match st.redirect (descriptor, r.withWord w) with
    | .ok st => State.redirectAll limit rest st
    | .error message => throw (st.complainHere message 2)

def State.subshell : (limit : Nat) → Command → State → State × Flow
  | 0, _, st => (st, .killed exhausted)
  | limit + 1, c, st =>
    let own := { st with traps := st.traps.filter (·.1 ≠ 0), jobs := [], loops := 0 }
    let (st', flow) := State.atEnd limit (State.run limit c own)
    (st.afterSubshell st', flow.afterSubshell)

/-- Runs the commands that have not been waited for. -/
def State.finishJobs : (limit : Nat) → State → State
  | 0, st => st
  | limit + 1, st =>
    match st.jobs with
    | [] => st
    | job :: others =>
      let own := { st with
        files := st.files.enter job.here
        bindings := job.bindings
        arguments := job.arguments
        sinks := job.sinks
        input := [] }
      let (own, _) := State.subshell limit job.command own
      State.finishJobs limit
        { st.afterSubshell own with status := st.status, input := st.input, jobs := others }

def State.atEnd : (limit : Nat) → State × Flow → State × Flow
  | 0, (st, _) => (st, .killed exhausted)
  | limit + 1, (st, .killed n) => (State.finishJobs limit st, .killed n)
  | limit + 1, (st, flow) =>
    match st.traps.lookup 0 with
    | none => (State.finishJobs limit st, flow)
    | some action =>
      let others := { st with traps := st.traps.filter (·.1 ≠ 0) }
      match State.script limit (tokensOf action) others with
      | (st', .exit) => (State.finishJobs limit st', .exit)
      | (st', .killed n) => (State.finishJobs limit st', .killed n)
      | (st', _) => (State.finishJobs limit { st' with status := st.status }, flow)

def State.signal : (limit : Nat) → (n : Nat) → State → State × Flow
  | 0, _, st => (st, .killed exhausted)
  | limit + 1, n, st =>
    match if n = 9 then none else st.traps.lookup n with
    | none => (st, .killed n)
    | some action =>
      match State.script limit (tokensOf action) st with
      | (st', .on) => ({ st' with status := st.status }, .on)
      | other => other

def State.script : (limit : Nat) → List Token → State → State × Flow
  | 0, _, st => (st, .killed exhausted)
  | limit + 1, ts, st =>
    match readLine ts with
    | .ok none => (st, .on)
    | .error m => { st with line := m.token.line }.giveUp (st.context ++ m.message.toList) 2
    | .ok (some (c, rest)) =>
      match State.run limit c st with
      | (st, .on) => State.script limit rest st
      | other => other

/-- Runs the shell with its arguments in a state that is its own. -/
def State.shell : (limit : Nat) → List (List Char) → State → State × Flow
  | 0, _, st => (st, .killed exhausted)
  | limit + 1, arguments, st =>
    match st.startOf arguments with
    | .error message => st.complain message 2
    | .ok s =>
      let own := { st.child s.name s.arguments with
        strict := s.options.contains 'e'
        demanding := s.options.contains 'u'
        input := if s.fromInput then [] else st.input }
      State.atEnd limit (State.script limit (tokensOf s.text) own)

/-- Runs a program that is no command of the shell. -/
def State.tool : (limit : Nat) → (name : String) → List (List Char) → State → State × Flow
  | 0, _, _, st => (st, .killed exhausted)
  | limit + 1, name, arguments, st =>
    if name = "sh" then
      let (st', flow) := State.shell limit arguments st
      let after := st.afterSubshell st'
      match flow with
      | .killed n =>
        match epitaph? n with
        | some words => after.complain words.toList (128 + n)
        | none => after.done (128 + n)
      | _ => (after, .on)
    else
      match program? st name arguments with
      | some outcome => outcome
      | none => st.complainHere (name.toList ++ ": not found".toList) 127

/-- Runs a program that is found by its name or path. -/
def State.external : (limit : Nat) → (name : List Char) → List (List Char) → State → State × Flow
  | 0, _, _, st => (st, .killed exhausted)
  | limit + 1, name, arguments, st =>
    let missing := st.complainHere (name ++ ": not found".toList) 127
    let forbidden := st.complainHere (name ++ ": Permission denied".toList) 126
    if name.contains '/' then
      match st.files.find (State.path name) with
      | .error .permissionDenied => forbidden
      | .error _ => missing
      | .ok place =>
        match st.files.get place with
        | some (.file contents true) =>
          match codedProgram? contents with
          | some tool => State.tool limit tool arguments st
          | none => State.tool limit "sh" (name :: arguments) st
        | _ => forbidden
    else if name = [] then st.complainHere ": Permission denied".toList 127
    else State.tool limit (String.ofList name) arguments st

def State.command : (limit : Nat) → (name : List Char) → List (List Char) → State → State × Flow
  | 0, _, _, st => (st, .killed exhausted)
  | limit + 1, name, arguments, st =>
    match String.ofList name with
    | "eval" =>
      let text := Format.joined arguments
      if text.all isSplitter then st.done 0
      else
        let (st', flow) := State.script limit (tokensOf text) { st with context := "eval: ".toList }
        ({ st' with context := st.context, line := st.line }, flow)
    | "." =>
      let p := arguments.head?.getD []
      if arguments = [] then st.done 0
      else if !p.contains '/' then st.giveUp (".: ".toList ++ p ++ ": not found".toList) 2
      else
        match st.files.read (State.path p) with
        | .error fault => st.giveUp (".: ".toList ++ State.cannotOpen p fault) 2
        | .ok contents =>
          let (st', flow) := State.script limit (tokensOf (ofBytes contents))
            { st with context := p ++ ": ".toList, status := 0 }
          ({ st' with context := st.context, line := st.line },
            if flow = .back then .on else flow)
    | "command" =>
      match arguments with
      | ['-', 'v'] :: name :: _ =>
        match st.kind? name with
        | some (program, words) => st.print "command".toList
            ((if program then words.toList else name) ++ ['\n'])
        | none => st.done 127
      | name :: arguments => State.command limit name arguments st
      | [] => st.done 0
    | "type" =>
      arguments.foldl (fun (st, flow) name =>
        match st.kind? name with
        | some (_, words) => (st.put (name ++ " is ".toList ++ words.toList ++ ['\n']), flow)
        | none => ({ st.put (name ++ ": not found\n".toList) with status := 127 }, flow))
        (st.done 0)
    | "exec" =>
      match arguments with
      | [] => st.done 0
      | name :: arguments =>
        match State.external limit name arguments { st with context := "exec: ".toList } with
        | (st', .on) => ({ st' with traps := [] }, .exit)
        | other => other
    | "wait" => (State.finishJobs limit st).done 0
    | _ =>
      match builtin? st name arguments with
      | some (st, .killed n) => State.signal limit n st
      | some outcome => outcome
      | none => State.external limit name arguments st

def State.call : (limit : Nat) → (name : List Char) → List (List Char) → State → State × Flow
  | 0, _, _, st => (st, .killed exhausted)
  | limit + 1, name, arguments, st =>
    match st.functions.lookup name with
    | none => State.command limit name arguments st
    | some body =>
      let (st', flow) := State.run limit body { st with arguments, loops := 0, locals := some [] }
      let isLocal (name : List Char) : Bool := (st'.locals.getD []).contains name
      let bindings :=
        st.bindings.filter (isLocal ·.1) ++ st'.bindings.filter fun b => !isLocal b.1
      ({ st' with bindings, arguments := st.arguments, loops := st.loops, locals := st.locals },
        if flow = .back then .on else flow)

/-- Runs a simple command: the words are filled in, then descriptors are connected, then variables
get their values, which they keep if there are no words or if the command is a special one. -/
def State.simple : (limit : Nat) → List (List Char × Word) → List Word → List Redirect → State →
    State × Flow
  | 0, _, _, _, st => (st, .killed exhausted)
  | limit + 1, assignments, words, rs, st =>
    match State.prepareWords limit words st with
    | .error e => e
    | .ok (words, st) =>
      let called := st.expand words
      match State.redirectAll limit rs st, called with
      | .error (st', .on), name :: _ =>
        (st.restore rs st', if isSpecialCommand name then .exit else .on)
      | .error (st', flow), _ => (st.restore rs st', flow)
      | .ok connected, called =>
        match State.assignAll limit assignments connected, called with
        | .error (st', flow), _ => (st.restore rs st', flow)
        | .ok assigned, [] => (st.restore rs assigned).done assigned.filled
        | .ok assigned, name :: arguments =>
          let told := { assigned with exported := assignments.map Prod.fst ++ st.exported }
          let (st', flow) := State.call limit name arguments
            (if assignments = [] then assigned else told)
          let kept :=
            if assignments = [] then st'
            else if isSpecialCommand name then { st' with exported := st.exported }
            else { st' with exported := st.exported, bindings := connected.bindings }
          (if name = "exec".toList then kept else st.restore rs kept, flow)

def State.run : (limit : Nat) → Command → State → State × Flow
  | 0, _, st => (st, .killed exhausted)
  | _, .skip, st => (st, .on)
  | limit + 1, .script text, st => State.script limit (tokensOf text) st
  | limit + 1, .simple line assignments words rs, st =>
    State.checked st (State.simple limit assignments words rs { st with line, filled := 0 })
  | limit + 1, .seq a b, st =>
    match State.run limit a st with
    | (st, .on) => State.run limit b st
    | other => other
  | limit + 1, .both a b, st =>
    match State.runTested limit a st with
    | (st, .on) => if st.status = 0 then State.run limit b st else (st, .on)
    | other => other
  | limit + 1, .either a b, st =>
    match State.runTested limit a st with
    | (st, .on) => if st.status = 0 then (st, .on) else State.run limit b st
    | other => other
  | limit + 1, .negate a, st =>
    match State.runTested limit a st with
    | (st, .on) => st.done (if st.status = 0 then 1 else 0)
    | other => other
  | limit + 1, .piped a b, st =>
    let taker := st.takers
    let first := { st with takers := taker + 1 }.connect 1 (.captured taker)
    let (first, flow) := State.subshell limit a first
    let (caught, first) := first.take taker
    match flow with
    | .on =>
      let second := { st.afterSubshell first with status := st.status, input := caught }
      let (second, flow) := State.subshell limit b second
      State.checked st ({ st.afterSubshell second with input := first.input }, flow)
    | flow => (st.afterSubshell first, flow)
  | limit + 1, .subshell a, st => State.checked st (State.subshell limit a st)
  | _, .background a, st =>
    let job : Job := ⟨a, st.bindings, st.arguments, st.files.here, st.sinks⟩
    { st with jobs := st.jobs ++ [job] }.done 0
  | _, .define name body, st =>
    { st with functions := (name, body) :: st.functions.filter (·.1 ≠ name) }.done 0
  | limit + 1, .loop success condition body, st =>
    let (st', flow) := State.rounds limit success condition body 0 { st with loops := st.loops + 1 }
    ({ st' with loops := st.loops }, flow)
  | limit + 1, .each name words body, st =>
    match State.prepareWords limit words st with
    | .error e => e
    | .ok (words, st) =>
      let (st', flow) := State.runEach limit name (st.expand words) body 0
        { st with loops := st.loops + 1 }
      ({ st' with loops := st.loops }, flow)
  | limit + 1, .branch condition yes no, st =>
    match State.runTested limit condition st with
    | (st, .on) =>
      if st.status = 0 then State.run limit yes st
      else if no.isSkip then st.done 0
      else State.run limit no st
    | other => other
  | limit + 1, .choose word clauses, st =>
    match State.prepareWord limit word st with
    | .error e => e
    | .ok (word, st) => State.choose limit (st.text word) clauses st
  | limit + 1, .redirected a rs, st =>
    match State.redirectAll limit rs st with
    | .error (st', flow) => (st.restore rs st', flow)
    | .ok st' =>
      let (st', flow) := State.run limit a st'
      (st.restore rs st', flow)

/-- Runs a command whose failure is looked at. -/
def State.runTested : (limit : Nat) → Command → State → State × Flow
  | 0, _, st => (st, .killed exhausted)
  | limit + 1, c, st =>
    let (st', flow) := State.run limit c { st with tested := true }
    ({ st' with tested := st.tested }, flow)

/-- Runs the command of the first clause that has a pattern which a text matches. -/
def State.choose : (limit : Nat) → (text : List Char) → List (List Word × Command) → State →
    State × Flow
  | 0, _, _, st => (st, .killed exhausted)
  | _, _, [], st => st.done 0
  | limit + 1, text, (ps, c) :: others, st =>
    match State.prepareWords limit ps st with
    | .error e => e
    | .ok (ps, st) =>
      if !ps.any fun p => matchesWhole (st.whole p) text then State.choose limit text others st
      else if c.isSkip then st.done 0
      else State.run limit c st

/-- Runs a loop, whose last round has left a status. -/
def State.rounds : (limit : Nat) → (success : Bool) → (condition body : Command) → (last : Nat) →
    State → State × Flow
  | 0, _, _, _, _, st => (st, .killed exhausted)
  | limit + 1, success, condition, body, last, st =>
    match State.runTested limit condition st with
    | (st, .on) =>
      if (st.status == 0) != success then st.done last
      else
        match State.run limit body st with
        | (st, .on) => State.rounds limit success condition body st.status st
        | (st, .leave (n + 2)) => (st, .leave (n + 1))
        | (st, .leave _) => st.done 0
        | (st, .again (n + 2)) => (st, .again (n + 1))
        | (st, .again _) => State.rounds limit success condition body 0 st
        | other => other
    | (st, .leave (n + 2)) => (st, .leave (n + 1))
    | (st, .leave _) => st.done 0
    | (st, .again (n + 2)) => (st, .again (n + 1))
    | (st, .again _) => State.rounds limit success condition body 0 st
    | other => other

/-- Runs a command once for every value of a variable; the last round has left a status. -/
def State.runEach : (limit : Nat) → (name : List Char) → List (List Char) → (body : Command) →
    (last : Nat) → State → State × Flow
  | 0, _, _, _, _, st => (st, .killed exhausted)
  | _, _, [], _, last, st => st.done last
  | limit + 1, name, w :: ws, body, _, st =>
    match State.run limit body (st.assign name w) with
    | (st, .on) => State.runEach limit name ws body st.status st
    | (st, .leave (n + 2)) => (st, .leave (n + 1))
    | (st, .leave _) => st.done 0
    | (st, .again (n + 2)) => (st, .again (n + 1))
    | (st, .again _) => State.runEach limit name ws body 0 st
    | other => other

end

/-- How deep the steps of a script may lie. -/
def stepLimit : Nat := 1000000

/-- Runs the shell with its arguments to its end: what it writes, the files, and how it ends. -/
def runShell (arguments : List (List Char)) (fs : FileSystem) :
    List UInt8 × FileSystem × ExitStatus :=
  let (st, flow) := State.shell stepLimit arguments (.initial fs "sh".toList [])
  let status := match flow with
    | .killed n => ExitStatus.signal n
    | _ => .code st.status
  (toBytes st.written.reverse.flatten, st.files.enter fs.here, status)

end BuildPanel.Script
