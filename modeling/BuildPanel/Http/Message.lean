import BuildPanel.Path

/-!
Requests and answers. A request is matched by its method and by its path, which is compared as it is
written; what follows a question mark plays no part.
-/

namespace BuildPanel

namespace Http

structure Request where
  method : String
  /-- The path with what follows it. -/
  target : String
  /-- The header that tells the type of the body. -/
  contentType : Option (List UInt8)
  body : List UInt8
  /-- After how many chunks of a streamed answer the client goes away; `none` if it stays. -/
  patience : Option Nat

def Request.path (r : Request) : String :=
  String.ofList (r.target.toList.takeWhile fun c => c ≠ '?' && c ≠ '#')

inductive Body where
  | whole (text : String)
  /-- A body that is sent piece by piece. -/
  | chunks (pieces : List String)
  deriving DecidableEq, Repr

structure Response where
  status : Nat
  contentType : Option String
  /-- The methods that a path admits, told to those who use another one. -/
  allow : Option String
  body : Body
  deriving DecidableEq, Repr

namespace Response

def empty (status : Nat) (allow : Option String) : Response :=
  ⟨status, none, allow, .whole ""⟩

def json (status : Nat) (text : List Char) : Response :=
  ⟨status, some "application/json", none, .whole (String.ofList text)⟩

def plainText (status : Nat) (body : Body) : Response :=
  ⟨status, some "text/plain; charset=utf-8", none, body⟩

def html (text : String) : Response :=
  ⟨200, some "text/html; charset=utf-8", none, .whole text⟩

def withoutBody (r : Response) : Response :=
  { r with body := .whole "" }

end Response

end Http

end BuildPanel
