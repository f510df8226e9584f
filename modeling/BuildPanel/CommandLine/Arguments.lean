import BuildPanel.CommandLine.Setting

/-!
Reading the command line. Arguments are taken from left to right. A value is joined to its option by
`=` or is the next argument, which then must not begin with a dash; it is looked at when the next
known option is met or all arguments are read. Settings without an option are taken from the
environment.
-/

namespace BuildPanel

namespace CommandLine

/-- Why the arguments do not lead to a configuration. -/
inductive Stop where
  | help (long : Bool)
  | version
  | unknownArgument (argument : String)
  | unneededValue (flag value : String)
  | missingValue (setting : Setting)
  | repeated (setting : Setting)
  | invalidValue (setting : Setting) (value reason : String)
  deriving DecidableEq, Repr

namespace Stop

def exitCode : Stop → Nat
  | help _ | version => 0
  | _ => 2

def complaint : Stop → String
  | help _ | version => ""
  | unknownArgument argument => "error: unexpected argument '" ++ argument ++ "' found"
  | unneededValue flag value =>
    "error: unexpected value '" ++ value ++ "' for '" ++ flag ++ "' found; no more were expected"
  | missingValue setting =>
    "error: a value is required for '" ++ setting.usage ++ "' but none was supplied"
  | repeated setting =>
    "error: the argument '" ++ setting.usage ++ "' cannot be used multiple times"
  | invalidValue setting value reason =>
    "error: invalid value '" ++ value ++ "' for '" ++ setting.usage ++ "': " ++ reason

/-- Whether a character of a complaint is shown: control characters are not, other than those that
are white space. -/
def isShown (c : Char) : Bool :=
  (' ' ≤ c && c ≠ '\x7f') || ['\t', '\n', '\x0c', '\r'].contains c

def firstLine (s : List Char) : List Char :=
  let line := s.takeWhile (· ≠ '\n')
  if line.length < s.length ∧ line.getLast? = some '\r' then line.dropLast else line

/-- What is shown: a help text, the version, or the first line of a complaint. -/
def message (env : Environment) : Stop → String
  | help long => if long then longHelp env else shortHelp env
  | version => CommandLine.version
  | other => String.ofList (firstLine (other.complaint.toList.filter isShown))

end Stop

/-- The largest integer that is read before it is looked at as a port. -/
def integerLimit : Nat := Nat.pow 2 63 - 1

/-- Reads decimal digits of an integer that must not get larger than a limit. Whichever comes first
is reported: a character that is no digit, or a digit too many. -/
def readDigits (limit : Nat) (tooFar : String) : Nat → List Char → Except String Nat
  | n, [] => .ok n
  | n, c :: s =>
    if !c.isDigit then .error "invalid digit found in string"
    else
      let n := n * 10 + (c.toNat - '0'.toNat)
      if limit < n then .error tooFar else readDigits limit tooFar n s

def readInteger (s : String) : Except String Int :=
  match s.toList with
  | [] => .error "cannot parse integer from empty string"
  | ['+'] | ['-'] => .error "invalid digit found in string"
  | '-' :: digits =>
    (readDigits (integerLimit + 1) "number too small to fit in target type" 0 digits).map
      fun n => -(n : Int)
  | '+' :: digits | digits =>
    (readDigits integerLimit "number too large to fit in target type" 0 digits).map
      fun n => (n : Int)

def readPort (s : String) : Except String UInt16 :=
  match readInteger s with
  | .error reason => .error reason
  | .ok n =>
    if 0 ≤ n ∧ n ≤ 65535 then .ok (UInt16.ofNat n.toNat)
    else .error (toString n ++ " is not in 0..=65535")

/-- Looks at a value before it is taken. -/
def check (setting : Setting) (value : String) : Except Stop Unit :=
  if setting.isPath ∧ value = "" then .error (.missingValue setting)
  else if setting = .port then
    match readPort value with
    | .ok _ => .ok ()
    | .error reason => .error (.invalidValue setting value reason)
  else .ok ()

abbrev Values := List (Setting × String)

structure Reading where
  values : Values
  /-- The option met last, and its value if that has been met, too. -/
  pending : Option (Setting × Option String)
  deriving Repr

def Reading.take (r : Reading) (setting : Setting) (value : String) : Except Stop Reading :=
  if (r.values.lookup setting).isSome then .error (.repeated setting)
  else (check setting value).map fun () => { r with values := r.values ++ [(setting, value)] }

/-- Takes the value of the option met last. -/
def Reading.settle (r : Reading) : Except Stop Reading :=
  match r.pending with
  | none => .ok r
  | some (setting, none) => .error (.missingValue setting)
  | some (setting, some value) => { r with pending := none }.take setting value

def splitValue (s : List Char) : String × Option String :=
  let name := s.takeWhile (· ≠ '=')
  (String.ofList name,
    if name.length < s.length then some (String.ofList (s.drop (name.length + 1))) else none)

def Reading.long (r : Reading) (s : List Char) : Except Stop Reading :=
  let (name, value?) := splitValue s
  match Setting.ofOption? name, value? with
  | some setting, some value => do (← r.settle).take setting value
  | some setting, none => do return { ← r.settle with pending := some (setting, none) }
  | none, value? =>
    if name = "help" ∨ name = "version" then
      match value? with
      | some value => .error (.unneededValue ("--" ++ name) value)
      | none => do
        let _ ← r.settle
        .error (if name = "help" then .help true else .version)
    else .error (.unknownArgument ("--" ++ name))

/-- Meets an argument that is no option: the value of the one before it, or one too many. -/
def Reading.plain (r : Reading) (argument : String) : Except Stop Reading :=
  match r.pending with
  | some (setting, none) => .ok { r with pending := some (setting, some argument) }
  | _ => .error (.unknownArgument argument)

/-- Reads arguments. After two dashes nothing is an option or a value any more. -/
def Reading.all (r : Reading) : List String → Except Stop Reading
  | [] => r.settle
  | argument :: rest =>
    match argument.toList with
    | ['-', '-'] =>
      match rest with
      | [] => r.settle
      | extra :: _ => .error (.unknownArgument extra)
    | '-' :: '-' :: s => do (← r.long s).all rest
    | ['-'] => do (← r.plain argument).all rest
    | '-' :: c :: _ =>
      if c = 'h' ∨ c = 'V' then do
        let _ ← r.settle
        .error (if c = 'h' then .help false else .version)
      else .error (.unknownArgument (String.ofList ['-', c]))
    | _ => do (← r.plain argument).all rest

/-- Adds the values of the environment for settings without one. -/
def withEnvironment (env : Environment) (values : Values) : List Setting → Except Stop Values
  | [] => .ok values
  | setting :: rest =>
    match values.lookup setting, env.get? setting.environment with
    | none, some value => do
      check setting value
      withEnvironment env (values ++ [(setting, value)]) rest
    | _, _ => withEnvironment env values rest

def read (env : Environment) (arguments : List String) : Except Stop Values := do
  let r ← (Reading.all ⟨[], none⟩ arguments)
  withEnvironment env r.values Setting.all

end CommandLine

end BuildPanel
