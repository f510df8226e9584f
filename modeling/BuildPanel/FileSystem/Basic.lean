import BuildPanel.Path

/-!
A file system is a finite map from places to entries. A place is the list of names that lead to it
from the root, without links and dots; the root itself is always a directory.

Main statements: writing an entry is seen at its place and nowhere else; pruning a place takes away
what lies there and below, and nothing else.
-/

namespace BuildPanel

/-- Where something lies: the names that lead there from the root. -/
abbrev Place := List Name

inductive Entry where
  /-- A file: its contents, and whether it may be run. -/
  | file (contents : List UInt8) (runnable : Bool)
  | link (target : Path)
  | directory
  deriving DecidableEq, Repr

/-- The entries below the root, and the directory that relative paths start from. -/
structure FileSystem where
  entries : List (Place × Entry)
  here : Place
  deriving Repr

namespace FileSystem

def lookup (p : Place) : List (Place × Entry) → Option Entry
  | [] => none
  | (q, e) :: rest => if q = p then some e else lookup p rest

def get (fs : FileSystem) : Place → Option Entry
  | [] => some .directory
  | p => lookup p fs.entries

/-- What lies at the places that are kept. -/
def restrict (fs : FileSystem) (keep : Place → Bool) : FileSystem :=
  { fs with entries := fs.entries.filter fun m => keep m.1 }

/-- Puts an entry at a place, in the stead of what lay there. -/
def put (fs : FileSystem) (p : Place) (e : Entry) : FileSystem :=
  { fs with entries := (p, e) :: (fs.restrict (· ≠ p)).entries }

/-- Takes away what lies at a place and below it. -/
def prune (fs : FileSystem) (p : Place) : FileSystem :=
  fs.restrict fun q => !p.isPrefixOf q

/-- Takes away what lies below a place. -/
def clear (fs : FileSystem) (p : Place) : FileSystem :=
  fs.restrict fun q => q = p || !p.isPrefixOf q

/-- The same files seen from another directory. -/
def enter (fs : FileSystem) (p : Place) : FileSystem :=
  { fs with here := p }

theorem lookup_filter (keep : Place → Bool) (p : Place) (entries : List (Place × Entry)) :
    lookup p (entries.filter fun m => keep m.1) =
      if keep p then lookup p entries else none := by
  induction entries with
  | nil => simp [lookup]
  | cons m rest ih =>
    by_cases hm : m.1 = p
    · by_cases hk : keep p <;> simp [lookup, hm, hk, ih]
    · by_cases hk : keep m.1 <;> simp [lookup, hm, hk, ih]

@[simp]
theorem get_root (fs : FileSystem) : fs.get [] = some .directory := rfl

theorem get_of_ne_root (fs : FileSystem) {p : Place} (h : p ≠ []) :
    fs.get p = lookup p fs.entries := by
  cases p with
  | nil => exact absurd rfl h
  | cons => rfl

theorem get_restrict (fs : FileSystem) (keep : Place → Bool) {p : Place} (h : p ≠ []) :
    (fs.restrict keep).get p = if keep p then fs.get p else none := by
  rw [get_of_ne_root _ h, get_of_ne_root _ h]
  exact lookup_filter keep p fs.entries

theorem get_put (fs : FileSystem) {p : Place} (e : Entry) (q : Place) (hp : p ≠ []) :
    (fs.put p e).get q = if q = p then some e else fs.get q := by
  by_cases hq : q = []
  · subst hq
    simp [hp.symm]
  · have := get_restrict fs (· ≠ p) hq
    rw [get_of_ne_root _ hq] at this
    rw [get_of_ne_root _ hq]
    by_cases h : p = q
    · simp [put, lookup, h]
    · rw [put, lookup, if_neg h, this]
      simp [Ne.symm h]

theorem get_prune (fs : FileSystem) {p : Place} (q : Place) (hp : p ≠ []) :
    (fs.prune p).get q = if p <+: q then none else fs.get q := by
  by_cases hq : q = []
  · subst hq
    simp [hp]
  · rw [prune, get_restrict fs _ hq]
    by_cases h : p <+: q
    · simp [h, List.isPrefixOf_iff_prefix.2 h]
    · have : p.isPrefixOf q = false := by simpa [← List.isPrefixOf_iff_prefix] using h
      simp [h, this]

theorem get_clear (fs : FileSystem) (p q : Place) :
    (fs.clear p).get q = if p <+: q ∧ q ≠ p then none else fs.get q := by
  by_cases hq : q = []
  · subst hq
    by_cases hp : p = [] <;> simp [hp, eq_comm]
  · rw [clear, get_restrict fs _ hq]
    by_cases h : p <+: q
    · by_cases h' : q = p <;> simp [h, h', List.isPrefixOf_iff_prefix.2 h]
    · have : p.isPrefixOf q = false := by simpa [← List.isPrefixOf_iff_prefix] using h
      simp [h, this]

/-- Whether one name comes before another, byte by byte. -/
def nameLE : Name → Name → Bool
  | [], _ => true
  | _ :: _, [] => false
  | a :: r, b :: s => a < b || (a == b && nameLE r s)

/-- The name by which a place is listed in a directory, if it lies directly in it. -/
def nameIn? (directory p : Place) : Option Name :=
  match p.getLast? with
  | some name => if p.dropLast = directory then some name else none
  | none => none

/-- The names of what lies directly in a directory, in byte order. -/
def list (fs : FileSystem) (directory : Place) : List Name :=
  (fs.entries.filterMap fun m => nameIn? directory m.1).mergeSort nameLE

end FileSystem

end BuildPanel
