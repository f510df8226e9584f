import BuildPanel.Toml.Statement

/-!
TOML documents: the table that the statements of a document make up. A header opens a table, to
which the pairs after it belong until the next header. A table may be opened once, and only if no
pair has made it; a table that longer headers have implied keeps what they have put into it, and
moves to the place of its own header.
-/

namespace BuildPanel.Toml

/-- The member that a header or a dotted key passes through, with its own members, and how a change
of these is put back; `none` if nothing can be added below it. -/
def descend (origin : Origin) (dotted : Bool) (node : Option Node) :
    Option (Origin × Members × (Members → Node)) :=
  match node with
  | none => some (origin, [], .table origin)
  | some (.table .inline _) => none
  | some (.table .header inner) =>
    if dotted then none else some (.header, inner, .table .header)
  | some (.table o inner) => some (o, inner, .table o)
  | some (.tables elements) =>
    match elements.reverse with
    | [] => none
    | last :: before => some (.header, last, fun inner => .tables (before.reverse ++ [inner]))
  | some _ => none

/-- Changes the members of the table at a path of headers; tables on the way that are not there yet
are implied. -/
def alterAt (change : Members → Option Members) : List Key → Members → Option Members
  | [], members => change members
  | key :: keys, members =>
    match descend .implied false (members.find? key) with
    | none => none
    | some (_, inner, back) =>
      (alterAt change keys inner).map fun inner => members.put key (back inner)

/-- Adds a pair to a table, with the tables that its dotted key makes. The last of these must be the
work of dotted keys. -/
def insertPair (last : Key) (value : Node) : List Key → Members → Option Members
  | [], members =>
    match members.find? last with
    | some _ => none
    | none => some (members ++ [(last, value)])
  | key :: keys, members =>
    match descend .dotted true (members.find? key) with
    | none => none
    | some (origin, inner, back) =>
      if keys.isEmpty ∧ origin ≠ .dotted then none
      else (insertPair last value keys inner).map fun inner => members.put key (back inner)

/-- The table to which pairs are added. -/
inductive Target where
  | root
  | table (path : Path)
  | element (path : Path)

/-- A document under construction: the closed tables, and the open one with its members. -/
structure Assembly where
  closed : Members
  target : Target
  members : Members

/-- Puts the open table into its place. -/
def Assembly.close (a : Assembly) : Option Members :=
  match a.target with
  | .root => some a.members
  | .table path =>
    alterAt (fun ms => some (ms.put path.last (.table .header a.members))) path.parents a.closed
  | .element path =>
    alterAt (fun ms =>
      match ms.find? path.last with
      | some (.tables elements) => some (ms.put path.last (.tables (elements ++ [a.members])))
      | none => some (ms.put path.last (.tables [a.members]))
      | some _ => none) path.parents a.closed

/-- The members that a table has before its header: those that longer headers have put into it. -/
def implied? (members : Members) (key : Key) : Option Members :=
  match members.find? key with
  | none => some []
  | some (.table .implied inner) => some inner
  | some _ => none

/-- The members of the table at a path of headers. -/
def membersAt? : List Key → Members → Option Members
  | [], members => some members
  | key :: keys, members =>
    match descend .implied false (members.find? key) with
    | none => none
    | some (_, inner, _) => membersAt? keys inner

def Assembly.add (a : Assembly) : Statement → Option Assembly
  | .pair path value =>
    (insertPair path.last value path.parents a.members).map fun members => { a with members }
  | .header path => do
    let closed ← a.close
    let parent ← membersAt? path.parents closed
    let inner ← implied? parent path.last
    let closed ← alterAt (fun ms => some (ms.erase path.last)) path.parents closed
    return ⟨closed, .table path, inner⟩
  | .arrayHeader path => do
    let closed ← a.close
    let parent ← membersAt? path.parents closed
    match parent.find? path.last with
    | none =>
      let closed ← alterAt (fun ms => some (ms ++ [(path.last, .tables [])])) path.parents closed
      return ⟨closed, .element path, []⟩
    | some (.tables _) => return ⟨closed, .element path, []⟩
    | some _ => none

/-- The table that statements make up, one after another. -/
def assemble? (statements : List Statement) : Option Members := do
  let a ← statements.foldlM Assembly.add ⟨[], .root, []⟩
  a.close

def document? (text : List Char) : Option Members :=
  (statements? text).bind assemble?

end BuildPanel.Toml
