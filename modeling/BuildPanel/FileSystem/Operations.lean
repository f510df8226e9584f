import BuildPanel.FileSystem.Resolve

/-!
What programs do with files and directories, as functions from a file system to the next one. A
function that can fail on the way returns the file system as it was left beside its outcome.
-/

namespace BuildPanel

namespace FileSystem

/-- Whether a path names a directory, links followed. -/
def isDirectory (fs : FileSystem) (p : Path) : Bool :=
  match fs.find p with
  | .ok place => fs.get place = some .directory
  | .error _ => false

def read (fs : FileSystem) (p : Path) : Except Fault (List UInt8) := do
  let place ← fs.find p
  match fs.get place with
  | some (.file contents _) => return contents
  | some .directory => throw .isDirectory
  | _ => throw .notFound

def readText (fs : FileSystem) (p : Path) : Except Fault String := do
  match Text.decode? (← fs.read p) with
  | some text => return String.ofList text
  | none => throw .notText

/-- Where a file is opened that is made if there is none: its place and what it holds. -/
def openToWrite (fs : FileSystem) (p : Path) :
    Except Fault (Place × Option (List UInt8 × Bool)) := do
  match ← fs.resolve .make p with
  | .absent place => return (place, none)
  | .present place =>
    match fs.get place with
    | some (.file contents runnable) => return (place, some (contents, runnable))
    | _ => throw .isDirectory

/-- Writes a file. One that is there loses its contents first and stays as runnable as it was. -/
def write (fs : FileSystem) (p : Path) (contents : List UInt8) : Except Fault FileSystem := do
  let (place, old) ← fs.openToWrite p
  return fs.put place (.file contents ((old.map Prod.snd).getD false))

def append (fs : FileSystem) (p : Path) (contents : List UInt8) : Except Fault FileSystem := do
  let (place, old) ← fs.openToWrite p
  let (before, runnable) := old.getD ([], false)
  return fs.put place (.file (before ++ contents) runnable)

def makeDirectory (fs : FileSystem) (p : Path) : Except Fault FileSystem := do
  match ← fs.lastStep p with
  | (_, none) => throw .alreadyExists
  | (place, some name) =>
    match fs.get (place ++ [name]) with
    | some _ => throw .alreadyExists
    | none => return fs.put (place ++ [name]) .directory

def makeLink (fs : FileSystem) (p target : Path) : Except Fault FileSystem := do
  if target = [] then throw .notFound
  match ← fs.lastStep p with
  | (_, none) => throw .alreadyExists
  | (place, some name) =>
    match fs.get (place ++ [name]) with
    | some _ => throw .alreadyExists
    | none => return fs.put (place ++ [name]) (.link target)

/-- Makes the first of some paths, each of which is above the one before it, and those above it that
are missing. -/
def makeAlong (fs : FileSystem) : List Path → FileSystem × Except Fault Unit
  | [] => (fs, .error .notFound)
  | p :: above =>
    if p = [] then (fs, .ok ())
    else
      match fs.makeDirectory p with
      | .ok fs' => (fs', .ok ())
      | .error .notFound =>
        match fs.makeAlong above with
        | (fs', .error fault) => (fs', .error fault)
        | (fs', .ok ()) =>
          match fs'.makeDirectory p with
          | .ok fs'' => (fs'', .ok ())
          | .error fault => (fs', if fs'.isDirectory p then .ok () else .error fault)
      | .error fault => (fs, if fs.isDirectory p then .ok () else .error fault)

/-- Makes a directory and the directories above it that are missing. What is a directory already
is left alone. -/
def makeDirectories (fs : FileSystem) (p : Path) : FileSystem × Except Fault Unit :=
  fs.makeAlong p.ancestors

/-- The place of a path whose last name, if it is a link, is not followed. -/
def findEntry (fs : FileSystem) (p : Path) : Except Fault Place := do
  match ← fs.resolve .entry p with
  | .present place => return place
  | .absent _ => throw .notFound

def unlink (fs : FileSystem) (p : Path) : Except Fault FileSystem := do
  let place ← fs.findEntry p
  if fs.get place = some .directory then throw .isDirectory
  return fs.prune place

def removeDirectory (fs : FileSystem) (p : Path) : Except Fault FileSystem := do
  match ← fs.lastStep p with
  | (_, none) =>
    match p.names.getLast? with
    | none => throw .busy
    | some name => throw (if name = Path.self then .invalidArgument else .notEmpty)
  | (directory, some name) =>
    let place := directory ++ [name]
    match fs.get place with
    | none => throw .notFound
    | some .directory =>
      if fs.list place ≠ [] then throw .notEmpty
      return fs.prune place
    | some _ => throw .notDirectory

/-- Takes away a directory with everything in it, or a link that a path ends in. Links are not
followed: neither a link inside the directory nor the path's own. -/
def removeAll (fs : FileSystem) (p : Path) : FileSystem × Except Fault Unit :=
  match fs.findEntry p with
  | .error fault => (fs, .error fault)
  | .ok place =>
    match fs.get place with
    | some (.link _) => (fs.prune place, .ok ())
    | some .directory =>
      let emptied := fs.clear place
      match emptied.removeDirectory p with
      | .ok fs' => (fs', .ok ())
      | .error fault => (emptied, .error fault)
    | _ => (fs, .error .notDirectory)

/-- The path that names a place without links and dots. -/
def pathOf (place : Place) : Path :=
  if place = [] then [Path.separator] else place.flatMap (Path.separator :: ·)

/-- The path without links and dots to what a path names. The given path may be of any length. Each
place on the way is looked up by its own path, which may not be too long. -/
def canonical (fs : FileSystem) (p : Path) : Except Fault Path := do
  if 0 ∈ p then throw .nulInPath
  if p = [] then throw .notFound
  let start := if p.isAbsolute then [] else fs.here
  if (fs.lookedUp linkLimit start p.steps).any fun s => pathLimit ≤ (pathOf s).length then
    throw .nameTooLong
  match ← fs.walk .use linkLimit start p.steps with
  | .absent _ => throw .notFound
  | .present place =>
    if (fs.get place).isNone then throw .notFound
    return pathOf place

end FileSystem

end BuildPanel
