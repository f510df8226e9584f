import BuildPanel.Text.Quoted

/-!
A well-formed value of the wrong shape: what stands in the place of what, a missing or repeated
member, a list that is too short, an unknown word. The wording is the same for every format that
values are read from.
-/

namespace BuildPanel

/-- A value found in the place of one of another type. -/
inductive Found where
  | null
  | boolean (b : Bool)
  | integer (i : Int)
  /-- A number that is no integer, with its text. -/
  | float (shown : List Char)
  | string (s : List Char)
  | sequence
  | map
  deriving DecidableEq, Repr

def Found.text : Found → List Char
  | .null => "null".toList
  | .boolean b => "boolean `".toList ++ (toString b).toList ++ "`".toList
  | .integer i => "integer `".toList ++ (toString i).toList ++ "`".toList
  | .float shown => "floating point `".toList ++ shown ++ "`".toList
  | .string s => "string ".toList ++ Text.quoted s
  | .sequence => "sequence".toList
  | .map => "map".toList

/-- How a value differs from the shape that is asked for. -/
inductive Mismatch where
  | invalidType (found : Found) (expected : String)
  | invalidLength (length : Nat) (type : String)
  | missingMember (name : String)
  | duplicateMember (name : String)
  | unknownVariant (name : List Char) (known : String)
  deriving DecidableEq, Repr

def Mismatch.message : Mismatch → String
  | .invalidType found expected =>
    "invalid type: " ++ String.ofList found.text ++ ", expected " ++ expected
  | .invalidLength length type =>
    "invalid length " ++ toString length ++ ", expected struct " ++ type ++ " with 2 elements"
  | .missingMember name => "missing field `" ++ name ++ "`"
  | .duplicateMember name => "duplicate field `" ++ name ++ "`"
  | .unknownVariant name known =>
    "unknown variant `" ++ String.ofList name ++ "`, expected " ++ known

end BuildPanel
