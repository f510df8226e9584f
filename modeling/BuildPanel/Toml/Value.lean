import BuildPanel.Decimal.Shortest
import BuildPanel.Mismatch

/-!
Values of TOML. A table remembers how it came about, because that decides how it may still be
extended: not at all if it was written inline, by further headers if a header named or implied it,
by further dotted keys if dotted keys made it.
-/

namespace BuildPanel.Toml

/-- A binary floating point number. -/
inductive Real where
  | finite (negative : Bool) (x : Decimal.Binary64)
  | infinite (negative : Bool)
  | nan
  deriving DecidableEq, Repr

/-- The text of a number: never an exponent, always a point if it is finite. -/
def Real.text : Real → List Char
  | .finite negative x => (if negative then ['-'] else []) ++ x.shortest.positional
  | .infinite negative => (if negative then ['-'] else []) ++ "inf".toList
  | .nan => "NaN".toList

/-- Values without parts. Of a date or time only its presence is kept. -/
inductive Scalar where
  | string (s : List Char)
  | integer (i : Int)
  | float (r : Real)
  | boolean (b : Bool)
  | dateTime
  deriving DecidableEq, Repr

/-- How a table came about. -/
inductive Origin where
  | inline
  | header
  /-- Named only as a part of a longer header. -/
  | implied
  /-- Made by a dotted key. -/
  | dotted
  deriving DecidableEq, Repr

abbrev Key := List Char

/-- What a key stands for. -/
inductive Node where
  | scalar (s : Scalar)
  | array (elements : List Node)
  | table (origin : Origin) (members : List (Key × Node))
  /-- Tables with headers in double brackets. -/
  | tables (elements : List (List (Key × Node)))
  deriving Inhabited

/-- The members of a table in the order of the document. -/
abbrev Members := List (Key × Node)

def Node.found : Node → Found
  | .scalar (.string s) => .string s
  | .scalar (.integer i) => .integer i
  | .scalar (.float r) => .float r.text
  | .scalar (.boolean b) => .boolean b
  | .scalar .dateTime => .map
  | .array _ => .sequence
  | .table .. => .map
  | .tables _ => .sequence

def Members.find? (key : Key) : Members → Option Node
  | [] => none
  | (k, v) :: rest => if k = key then some v else find? key rest

def Members.erase (key : Key) : Members → Members
  | [] => []
  | (k, v) :: rest => if k = key then rest else (k, v) :: erase key rest

def Members.put (key : Key) (value : Node) : Members → Members
  | [] => [(key, value)]
  | (k, v) :: rest => if k = key then (key, value) :: rest else (k, v) :: put key value rest

end BuildPanel.Toml
