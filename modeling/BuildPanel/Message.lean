import BuildPanel.Options.Json
import BuildPanel.Page

/-!
The answers of the panel's endpoints and their JSON forms. Every answer is a record of two members,
written in their order; reading accepts what writing produces, and more.
-/

namespace BuildPanel

open Json

inductive Status where
  | success
  | error
  deriving DecidableEq, Repr

namespace Status

/-- The status of an action that may have succeeded. -/
def ofSuccess (succeeded : Bool) : Status :=
  if succeeded then .success else .error

def word : Status → String
  | .success => "success"
  | .error => "error"

def ofWord? (word : List Char) : Option Status :=
  if word = Status.success.word.toList then some .success
  else if word = Status.error.word.toList then some .error
  else none

theorem ofWord?_word (s : Status) : ofWord? s.word.toList = some s := by
  cases s <;> decide +kernel

def toJson (s : Status) : List Char :=
  quote s.word.toList

/-- The word of a status, after its opening quote. -/
def readWord : Reader Status := fun s =>
  match readString s with
  | .error f => .error f
  | .ok (word, rest) =>
    match ofWord? word with
    | some status => .ok (status, rest)
    | none => .error (.before (.mismatch (.unknownVariant word "`success` or `error`")) rest)

/-- The `null` that belongs to a status written as an object. -/
def readNothing (s : Input) : Except Failure Input :=
  match skipSpace s with
  | [] => .error (.before .endInValue [])
  | 110 :: r => Json.readWord afterN r
  | s => .error (otherType "unit" s)

/-- A status written as an object with one member, after its brace. -/
def readObject : Reader Status := fun s =>
  match skipSpace s with
  | [] => .error (.before .endInValue [])
  | 34 :: r =>
    match readWord r with
    | .error f => .error f
    | .ok (status, rest) =>
      match readColon rest with
      | .error f => .error f
      | .ok rest =>
        match readNothing rest with
        | .error f => .error f
        | .ok rest =>
          match skipSpace rest with
          | [] => .error (.before .endInObject [])
          | 125 :: r => .ok (status, r)
          | s => .error (.before .expectedValue s)
  | s => .error (otherType "variant identifier" s)

/-- A status: its word, or an object whose only member has its word as name and is `null`. -/
def readJson : Reader Status := fun s =>
  match skipSpace s with
  | [] => .error (.before .endInValue [])
  | 34 :: r => readWord r
  | 123 :: r => readObject r
  | s => .error (.at .expectedValue s)

end Status

/-- The answer to saving. A message is there only if the request was refused. -/
structure SaveResponse where
  status : Status
  message : Option String
  deriving DecidableEq, Repr

structure CleanResponse where
  status : Status
  message : String
  deriving DecidableEq, Repr

/-- The answer to applying: how it ended and what was printed. -/
structure ApplyResponse where
  status : Status
  output : String
  deriving DecidableEq, Repr

/-- The member that every answer begins with. -/
def Status.member : Member Status :=
  ⟨"status", Status.readJson, none⟩

/-- A reader whose value is put into another form. -/
def Json.Reader.map {α β : Type} (f : α → β) (read : Reader α) : Reader β := fun s =>
  (read s).map fun (value, rest) => (f value, rest)

namespace SaveResponse

def toJson (r : SaveResponse) : List Char :=
  writeObject (writeMember "status".toList r.status.toJson ::
    (r.message.map fun m => writeMember "message".toList (quote m.toList)).toList)

def readJson : Reader SaveResponse :=
  Reader.map (fun (status, message) => ⟨status, message⟩)
    (readRecord "SaveResponse" Status.member ⟨"message", readOptional readText, some none⟩)

end SaveResponse

namespace CleanResponse

def toJson (r : CleanResponse) : List Char :=
  writeObject [writeMember "status".toList r.status.toJson,
    writeMember "message".toList (quote r.message.toList)]

def readJson : Reader CleanResponse :=
  Reader.map (fun (status, message) => ⟨status, message⟩)
    (readRecord "CleanResponse" Status.member ⟨"message", readText, none⟩)

end CleanResponse

namespace ApplyResponse

def toJson (r : ApplyResponse) : List Char :=
  writeObject [writeMember "status".toList r.status.toJson,
    writeMember "output".toList (quote r.output.toList)]

def readJson : Reader ApplyResponse :=
  Reader.map (fun (status, output) => ⟨status, output⟩)
    (readRecord "ApplyResponse" Status.member ⟨"output", readText, none⟩)

end ApplyResponse

namespace BuildStatus

def toJson (r : BuildStatus) : List Char :=
  writeObject [writeMember "exists".toList (writeBool r.present),
    writeMember "path".toList (quote r.path.toList)]

def readJson : Reader BuildStatus :=
  Reader.map (fun (present, path) => ⟨present, path⟩)
    (readRecord "BuildStatus" ⟨"exists", readBool, none⟩ ⟨"path", readText, none⟩)

end BuildStatus

end BuildPanel
