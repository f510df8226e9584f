import BuildPanel.FileSystem.Basic
import BuildPanel.FileSystem.Fault

/-!
From a path to a place. Names are walked one after another; `.` stays, `..` goes up, a link is
replaced by the steps of its target. At most forty links are followed, which ends every walk.
-/

namespace BuildPanel

inductive Target where
  | present (place : Place)
  /-- Nothing lies there, but there is a directory to put it into. -/
  | absent (place : Place)
  deriving DecidableEq, Repr

namespace FileSystem

/-- The most links that one walk follows. -/
def linkLimit : Nat := 40

def nameLimit : Nat := 255

def pathLimit : Nat := 4096

/-- Whether a path can be handed to the system at all. -/
def accept (p : Path) : Except Fault Unit :=
  if 0 ∈ p then .error .nulInPath
  else if p = [] then .error .notFound
  else if p.length ≥ pathLimit then .error .nameTooLong
  else .ok ()

/-- What a walk is for, which decides how its last name is taken. -/
inductive Purpose where
  /-- What lies there, links followed. -/
  | use
  /-- The entry itself: a link is not followed. -/
  | entry
  /-- A file that is made if there is none: a path that asks for a directory, or a link to such a
  path, is refused before its last name is looked up. -/
  | make
  deriving DecidableEq, Repr

abbrev Walk := Place → List Name → Except Fault Target

/-- Where the steps of a path lead from a place, if `onward` tells where they lead once a link has
been replaced by the steps of its target. -/
def walkWith (fs : FileSystem) (purpose : Purpose) (onward : Walk) : Walk
  | place, [] => .ok (.present place)
  | place, name :: rest =>
    if fs.get place ≠ some .directory then .error .notDirectory
    else if name = [] ∨ name = Path.self then fs.walkWith purpose onward place rest
    else if name = Path.up then fs.walkWith purpose onward place.dropLast rest
    else if purpose = .make ∧ rest = [[]] then .error .isDirectory
    else if nameLimit < name.length then .error .nameTooLong
    else
      let next := place ++ [name]
      match fs.get next with
      | none => if rest = [] then .ok (.absent next) else .error .notFound
      | some (.link target) =>
        if rest = [] ∧ purpose = .entry then .ok (.present next)
        else onward (if target.isAbsolute then [] else place) (target.steps ++ rest)
      | some _ => fs.walkWith purpose onward next rest

/-- Where the steps of a path lead from a place, if at most so many links are met. -/
def walk (fs : FileSystem) (purpose : Purpose) : (links : Nat) → Walk
  | 0 => fs.walkWith purpose fun _ _ => .error .tooManyLinks
  | links + 1 => fs.walkWith purpose (fs.walk purpose links)

/-- The places that a walk looks up one after another, if `onward` tells those that it looks up once
a link has been replaced by the steps of its target. -/
def lookedUpWith (fs : FileSystem) (onward : Place → List Name → List Place) :
    Place → List Name → List Place
  | _, [] => []
  | place, name :: rest =>
    if fs.get place ≠ some .directory then []
    else if name = [] ∨ name = Path.self then fs.lookedUpWith onward place rest
    else if name = Path.up then fs.lookedUpWith onward place.dropLast rest
    else
      let next := place ++ [name]
      next :: match fs.get next with
        | none => []
        | some (.link target) =>
          onward (if target.isAbsolute then [] else place) (target.steps ++ rest)
        | some _ => fs.lookedUpWith onward next rest

/-- The places that a walk looks up one after another, if at most so many links are met. -/
def lookedUp (fs : FileSystem) : (links : Nat) → Place → List Name → List Place
  | 0 => fs.lookedUpWith fun _ _ => []
  | links + 1 => fs.lookedUpWith (fs.lookedUp links)

/-- Where a path leads. -/
def resolve (fs : FileSystem) (purpose : Purpose) (p : Path) : Except Fault Target := do
  accept p
  let start := if p.isAbsolute then [] else fs.here
  match ← fs.walk purpose linkLimit start p.steps with
  | .absent place => return .absent place
  | .present place =>
    if (fs.get place).isNone then throw .notFound
    return .present place

/-- The place of what a path names, all links followed. -/
def find (fs : FileSystem) (p : Path) : Except Fault Place := do
  match ← fs.resolve .use p with
  | .present place => return place
  | .absent _ => throw .notFound

/-- The directory in which the last name of a path is looked up, and that name; `none` stands for a
last name that cannot be given to anything: a dot, two dots, or no name at all. -/
def lastStep (fs : FileSystem) (p : Path) : Except Fault (Place × Option Name) := do
  accept p
  let start := if p.isAbsolute then [] else fs.here
  match p.names.getLast? with
  | none => return (start, none)
  | some name =>
    match ← fs.walk .use linkLimit start p.names.dropLast with
    | .absent _ => throw .notFound
    | .present place =>
      if fs.get place ≠ some .directory then throw .notDirectory
      if name = Path.self ∨ name = Path.up then return (place, none)
      if nameLimit < name.length then throw .nameTooLong
      return (place, some name)

end FileSystem

end BuildPanel
