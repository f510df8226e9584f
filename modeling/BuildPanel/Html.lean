/-!
Text inside HTML: five characters are written as entities, so that an inserted text is content and
never markup, in element content and in double-quoted attributes alike.
-/

namespace BuildPanel.Html

def escapeChar : Char → List Char
  | '&' => "&amp;".toList
  | '<' => "&lt;".toList
  | '>' => "&gt;".toList
  | '"' => "&quot;".toList
  | '\'' => "&#39;".toList
  | c => [c]

def escape (text : List Char) : List Char :=
  text.flatMap escapeChar

/-- The text that an escaped text stands for: the five entities are replaced by their characters. -/
def unescape : List Char → List Char
  | '&' :: 'a' :: 'm' :: 'p' :: ';' :: rest => '&' :: unescape rest
  | '&' :: 'l' :: 't' :: ';' :: rest => '<' :: unescape rest
  | '&' :: 'g' :: 't' :: ';' :: rest => '>' :: unescape rest
  | '&' :: 'q' :: 'u' :: 'o' :: 't' :: ';' :: rest => '"' :: unescape rest
  | '&' :: '#' :: '3' :: '9' :: ';' :: rest => '\'' :: unescape rest
  | c :: rest => c :: unescape rest
  | [] => []

/-- A part of a document: markup of its own, or a text put into it. -/
inductive Piece where
  | markup (s : String)
  | inserted (text : String)
  deriving DecidableEq, Repr

def Piece.write : Piece → List Char
  | .markup s => s.toList
  | .inserted text => escape text.toList

def write (pieces : List Piece) : String :=
  String.ofList (pieces.flatMap Piece.write)

end BuildPanel.Html
