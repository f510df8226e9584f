import Mathlib.Tactic.SplitIfs
import BuildPanel.FileSystem.Resolve

/-!
Walks, one name at a time. `stride` tells what a single name does, from the entry of the place and
the entry of the next one alone; a walk is its strides one after another, and every statement about
walks is proved by induction over the links that are left and the names that are left.
-/

namespace BuildPanel

/-- The place to which a path leads, whether or not something lies there. -/
def Target.place : Target → Place
  | .present place => place
  | .absent place => place

namespace FileSystem

/-- What a walk does at one name. -/
inductive Stride where
  | fails (fault : Fault)
  | ends (target : Target)
  | goes (place : Place)
  /-- A link is replaced by the steps of its target. -/
  | follows (place : Place) (names : List Name)
  deriving DecidableEq

/-- Where names lead that are no names of entries: no name at all, a dot, two dots. -/
def dotted? (place : Place) (name : Name) : Option Place :=
  if name = [] ∨ name = Path.self then some place
  else if name = Path.up then some place.dropLast
  else none

/-- Why the name of an entry is refused before it is looked up. -/
def refusal? (purpose : Purpose) (name : Name) (rest : List Name) : Option Fault :=
  if purpose = .make ∧ rest = [[]] then some .isDirectory
  else if nameLimit < name.length then some .nameTooLong
  else none

/-- What a walk does at the entry that it has looked up. -/
def arrive (purpose : Purpose) (place : Place) (name : Name) (rest : List Name) :
    Option Entry → Stride
  | none => if rest = [] then .ends (.absent (place ++ [name])) else .fails .notFound
  | some (.link target) =>
    if rest = [] ∧ purpose = .entry then .ends (.present (place ++ [name]))
    else .follows (if target.isAbsolute then [] else place) (target.steps ++ rest)
  | some _ => .goes (place ++ [name])

/-- What a walk does at a name with further names behind it. -/
def stride (fs : FileSystem) (purpose : Purpose) (place : Place) (name : Name)
    (rest : List Name) : Stride :=
  if fs.get place ≠ some .directory then .fails .notDirectory
  else
    match dotted? place name with
    | some next => .goes next
    | none =>
      match refusal? purpose name rest with
      | some fault => .fails fault
      | none => arrive purpose place name rest (fs.get (place ++ [name]))

variable {fs : FileSystem} {purpose : Purpose}

theorem walkWith_cons (onward : Walk) (place : Place) (name : Name) (rest : List Name) :
    fs.walkWith purpose onward place (name :: rest) =
      match fs.stride purpose place name rest with
      | .fails fault => .error fault
      | .ends target => .ok target
      | .goes next => fs.walkWith purpose onward next rest
      | .follows next names => onward next names := by
  rw [walkWith, stride, dotted?, refusal?]
  dsimp only
  cases fs.get (place ++ [name]) with
  | none =>
    dsimp only [arrive]
    split_ifs <;> rfl
  | some e =>
    cases e with
    | file =>
      dsimp only [arrive]
      split_ifs <;> rfl
    | link =>
      dsimp only [arrive]
      split_ifs <;> rfl
    | directory =>
      dsimp only [arrive]
      split_ifs <;> rfl

@[simp]
theorem walk_nil (links : Nat) (place : Place) :
    fs.walk purpose links place [] = .ok (.present place) := by
  cases links <;> rfl

/-- A walk is its strides. -/
theorem walk_cons (links : Nat) (place : Place) (name : Name) (rest : List Name) :
    fs.walk purpose links place (name :: rest) =
      match fs.stride purpose place name rest with
      | .fails fault => .error fault
      | .ends target => .ok target
      | .goes next => fs.walk purpose links next rest
      | .follows next names =>
        match links with
        | 0 => .error .tooManyLinks
        | fewer + 1 => fs.walk purpose fewer next names := by
  cases links with
  | zero => exact walkWith_cons _ place name rest
  | succ fewer => exact walkWith_cons _ place name rest

theorem walk_goes {links : Nat} {place next : Place} {name : Name} {rest : List Name}
    (strides : fs.stride purpose place name rest = .goes next) :
    fs.walk purpose links place (name :: rest) = fs.walk purpose links next rest := by
  rw [walk_cons, strides]

/-- A separator at the end asks for a directory. -/
theorem walk_mark {links : Nat} {place : Place} (directory : fs.get place = some .directory)
    (marked : Bool) :
    fs.walk purpose links place (if marked then [[]] else []) = .ok (.present place) := by
  cases marked with
  | false => exact walk_nil links place
  | true =>
    have goes : fs.stride purpose place [] [] = .goes place := by simp [stride, directory, dotted?]
    exact (walk_goes goes).trans (walk_nil links place)

/-- Induction over the links that are left and, within one link, over the names that are left. -/
theorem walk_induction {motive : Nat → Place → List Name → Prop}
    (nil : ∀ links place, motive links place [])
    (cons : ∀ links place name rest, (∀ next, motive links next rest) →
      (∀ fewer next names, links = fewer + 1 → motive fewer next names) →
        motive links place (name :: rest)) :
    ∀ links place names, motive links place names := by
  intro links
  induction links with
  | zero =>
    intro place names
    induction names generalizing place with
    | nil => exact nil 0 place
    | cons name rest ih => exact cons 0 place name rest ih (by omega)
  | succ fewer ih =>
    intro place names
    induction names generalizing place with
    | nil => exact nil (fewer + 1) place
    | cons name rest ih' =>
      refine cons (fewer + 1) place name rest ih' ?_
      rintro _ next names ⟨⟩
      exact ih next names

/-- A walk that comes to an end, stride by stride. -/
inductive Leads (fs : FileSystem) (purpose : Purpose) :
    (links : Nat) → Place → List Name → Target → Prop where
  | nil (links : Nat) (place : Place) : Leads fs purpose links place [] (.present place)
  | ends {links : Nat} {place : Place} {name : Name} {rest : List Name} {target : Target}
      (strides : fs.stride purpose place name rest = .ends target) :
      Leads fs purpose links place (name :: rest) target
  | goes {links : Nat} {place next : Place} {name : Name} {rest : List Name} {target : Target}
      (strides : fs.stride purpose place name rest = .goes next)
      (onward : Leads fs purpose links next rest target) :
      Leads fs purpose links place (name :: rest) target
  | follows {fewer : Nat} {place next : Place} {name : Name} {rest names : List Name}
      {target : Target} (strides : fs.stride purpose place name rest = .follows next names)
      (onward : Leads fs purpose fewer next names target) :
      Leads fs purpose (fewer + 1) place (name :: rest) target

theorem leads_of_walk {links : Nat} {place : Place} {names : List Name} {target : Target}
    (walks : fs.walk purpose links place names = .ok target) :
    fs.Leads purpose links place names target := by
  revert walks
  refine walk_induction
    (motive := fun links place names => fs.walk purpose links place names = .ok target →
      fs.Leads purpose links place names target) ?_ ?_ links place names
  · intro links place walks
    rw [walk_nil] at walks
    cases walks
    exact .nil links place
  · intro links place name rest onward later walks
    rw [walk_cons] at walks
    cases strides : fs.stride purpose place name rest with
    | fails fault =>
      rw [strides] at walks
      cases walks
    | ends end_ =>
      rw [strides] at walks
      cases walks
      exact .ends strides
    | goes next =>
      rw [strides] at walks
      exact .goes strides (onward next walks)
    | follows next names =>
      rw [strides] at walks
      cases links with
      | zero => cases walks
      | succ fewer => exact .follows strides (later fewer next names rfl walks)

theorem Leads.walk {links : Nat} {place : Place} {names : List Name} {target : Target}
    (h : fs.Leads purpose links place names target) :
    fs.walk purpose links place names = .ok target := by
  induction h with
  | nil links place => exact walk_nil links place
  | ends strides => rw [walk_cons, strides]
  | goes strides _ ih =>
    rw [walk_cons, strides]
    exact ih
  | follows strides _ ih =>
    rw [walk_cons, strides]
    exact ih

/-- What is found at the end of a walk, whether it was named or is missing. -/
theorem of_stride_ends {place : Place} {name : Name} {rest : List Name} {target : Target}
    (strides : fs.stride purpose place name rest = .ends target) :
    dotted? place name = none ∧ target.place = place ++ [name] ∧
      ∀ s, target = .absent s → fs.get s = none := by
  unfold stride at strides
  split at strides
  · cases strides
  cases dots : dotted? place name with
  | some next =>
    rw [dots] at strides
    cases strides
  | none =>
    rw [dots] at strides
    dsimp only at strides
    split at strides
    · cases strides
    cases entry : fs.get (place ++ [name]) with
    | none =>
      by_cases last : rest = []
      · simp only [entry, arrive, last, if_true] at strides
        cases strides
        refine ⟨rfl, rfl, ?_⟩
        rintro s ⟨⟩
        exact entry
      · simp [entry, arrive, last] at strides
    | some e =>
      cases e with
      | link target =>
        by_cases last : rest = [] ∧ purpose = .entry
        · rw [entry, arrive, if_pos last] at strides
          cases strides
          exact ⟨rfl, rfl, nofun⟩
        · simp [entry, arrive, last] at strides
      | _ => simp [entry, arrive] at strides

/-- Nothing lies where a walk ends absent. -/
theorem get_of_walk_absent {links : Nat} {place s : Place} {names : List Name}
    (h : fs.walk purpose links place names = .ok (.absent s)) : fs.get s = none := by
  have leads := leads_of_walk h
  clear h
  generalize found : Target.absent s = target at leads
  induction leads with
  | nil => cases found
  | ends strides => exact (of_stride_ends strides).2.2 s found.symm
  | goes _ _ ih => exact ih found
  | follows _ _ ih => exact ih found

/-! ### One walk after another -/

/-- What a walk does at a name if further names stand behind those that it knows of. -/
def Stride.before (ys : List Name) : Stride → Stride
  | .fails fault => .fails fault
  | .ends _ => .fails .notFound
  | .goes place => .goes place
  | .follows place names => .follows place (names ++ ys)

theorem stride_append (fs : FileSystem) {ys : List Name} (notMake : purpose ≠ .make)
    (more : ys ≠ []) (place : Place) (name : Name) (xs : List Name) :
    fs.stride purpose place name (xs ++ ys) = (fs.stride .use place name xs).before ys := by
  have refused : refusal? purpose name (xs ++ ys) = refusal? .use name xs := by
    simp [refusal?, notMake]
  have last : xs ++ ys ≠ [] := by simp [more]
  unfold stride
  rw [refused]
  split
  · rfl
  cases dotted? place name with
  | some next => rfl
  | none =>
    cases refusal? .use name xs with
    | some fault => rfl
    | none =>
      cases fs.get (place ++ [name]) with
      | none => by_cases h : xs = [] <;> simp [arrive, more, h, Stride.before]
      | some e => cases e <;> simp [arrive, last, Stride.before]

theorem stride_use_ne_ends {place s : Place} {name : Name} {rest : List Name} :
    fs.stride .use place name rest ≠ .ends (.present s) := by
  unfold stride
  split
  · nofun
  split
  · nofun
  split
  · nofun
  cases fs.get (place ++ [name]) with
  | none => by_cases last : rest = [] <;> simp [arrive, last]
  | some e => cases e <;> simp [arrive]

/-- Induction along a walk that follows links and comes to a place: it goes on from name to name and
from link to target. -/
theorem walk_use_induction {s : Place} {motive : Nat → Place → List Name → Prop}
    (nil : ∀ links, motive links s [])
    (goes : ∀ links place next name rest, fs.stride .use place name rest = .goes next →
      motive links next rest → motive links place (name :: rest))
    (follows : ∀ fewer place next name rest names,
      fs.stride .use place name rest = .follows next names →
        motive fewer next names → motive (fewer + 1) place (name :: rest))
    {links : Nat} {place : Place} {names : List Name}
    (walks : fs.walk .use links place names = .ok (.present s)) : motive links place names := by
  have leads := leads_of_walk walks
  clear walks
  generalize found : Target.present s = target at leads
  induction leads with
  | nil links place =>
    cases found
    exact nil links
  | ends strides =>
    rw [← found] at strides
    exact absurd strides stride_use_ne_ends
  | goes strides _ ih => exact goes _ _ _ _ _ strides (ih found)
  | follows strides _ ih => exact follows _ _ _ _ _ _ strides (ih found)

/-- From the end of a walk the names behind it are walked, with the links that are left. -/
theorem walk_append {links : Nat} {place a : Place} {xs : List Name}
    (walks : fs.walk .use links place xs = .ok (.present a)) :
    ∃ m, ∀ kind ys, kind ≠ .make → ys ≠ [] →
      fs.walk kind links place (xs ++ ys) = fs.walk kind m a ys := by
  refine walk_use_induction (motive := fun links place xs => ∃ m, ∀ kind ys, kind ≠ .make →
    ys ≠ [] → fs.walk kind links place (xs ++ ys) = fs.walk kind m a ys) ?_ ?_ ?_ walks
  · intro links
    exact ⟨links, fun _ _ _ _ => rfl⟩
  · rintro links place next name rest strides ⟨m, same⟩
    refine ⟨m, ?_⟩
    intro kind ys notMake more
    rw [List.cons_append, walk_cons, stride_append fs notMake more, strides]
    exact same kind ys notMake more
  · rintro fewer place next name rest names strides ⟨m, same⟩
    refine ⟨m, ?_⟩
    intro kind ys notMake more
    rw [List.cons_append, walk_cons, stride_append fs notMake more, strides]
    exact same kind ys notMake more

/-- A walk that comes to an end has come to a place after each of its names. -/
theorem walk_init {links : Nat} {place : Place} {xs ys : List Name} {target : Target}
    (notMake : purpose ≠ .make) (more : ys ≠ [])
    (walks : fs.walk purpose links place (xs ++ ys) = .ok target) :
    ∃ a, fs.walk .use links place xs = .ok (.present a) := by
  revert walks
  refine walk_induction
    (motive := fun links place xs => fs.walk purpose links place (xs ++ ys) = .ok target →
      ∃ a, fs.walk .use links place xs = .ok (.present a)) ?_ ?_ links place xs
  · intro links place _
    exact ⟨place, walk_nil links place⟩
  · intro links place name rest onward later walks
    rw [List.cons_append, walk_cons, stride_append fs notMake more] at walks
    rw [walk_cons]
    cases strides : fs.stride .use place name rest with
    | fails fault =>
      rw [strides] at walks
      cases walks
    | ends end_ =>
      rw [strides] at walks
      cases walks
    | goes next =>
      rw [strides] at walks
      exact onward next walks
    | follows next names =>
      rw [strides] at walks
      cases links with
      | zero => cases walks
      | succ fewer => exact later fewer next names rfl walks

/-- Names that ask for a directory lead to the same place whatever they are walked for. -/
theorem walk_entry_marked (links : Nat) (place : Place) (names : List Name) :
    fs.walk .entry links place (names ++ [[]]) = fs.walk .use links place (names ++ [[]]) := by
  refine walk_induction (motive := fun links place names =>
    fs.walk .entry links place (names ++ [[]]) = fs.walk .use links place (names ++ [[]]))
    ?_ ?_ links place names
  · intro links place
    have same : fs.stride .entry place [] [] = fs.stride .use place [] [] := rfl
    rw [List.nil_append, walk_cons, walk_cons, same]
    cases strides : fs.stride .use place [] [] with
    | fails fault => rfl
    | ends target => rfl
    | goes next =>
      dsimp only
      rw [walk_nil, walk_nil]
    | follows next names =>
      unfold stride at strides
      split at strides <;> cases strides
  · intro links place name rest onward later
    have entry := @stride_append .entry fs _ nofun (List.cons_ne_nil [] []) place name rest
    have use := @stride_append .use fs _ nofun (List.cons_ne_nil [] []) place name rest
    rw [List.cons_append, walk_cons, walk_cons, entry, use]
    cases fs.stride .use place name rest with
    | fails fault => rfl
    | ends target => rfl
    | goes next => exact onward next
    | follows next names =>
      cases links with
      | zero => rfl
      | succ fewer => exact later fewer next names rfl

/-- Outcomes, computed: whether one is a success with some result can be decided of the result
alone. -/
theorem ok_of_toOption {ε α : Type} {outcome : Except ε α} {a : α}
    (h : outcome.toOption = some a) : outcome = .ok a := by
  cases outcome with
  | error fault => cases h
  | ok found => exact congrArg Except.ok (Option.some.inj h)

/-! ### Paths -/

/-- Where the walk along a path starts. -/
def origin (fs : FileSystem) (p : Path) : Place :=
  if p.isAbsolute then [] else fs.here

theorem resolve_eq (p : Path) :
    fs.resolve purpose p =
      match accept p with
      | .error fault => .error fault
      | .ok () =>
        match fs.walk purpose linkLimit (fs.origin p) p.steps with
        | .error fault => .error fault
        | .ok (.absent place) => .ok (.absent place)
        | .ok (.present place) =>
          if (fs.get place).isNone then .error .notFound else .ok (.present place) := by
  unfold resolve origin
  cases accept p with
  | error fault => rfl
  | ok =>
    dsimp only [bind, Except.bind]
    cases fs.walk purpose linkLimit (if p.isAbsolute then [] else fs.here) p.steps with
    | error fault => rfl
    | ok target =>
      cases target with
      | absent place => rfl
      | present place => cases fs.get place <;> rfl

theorem resolve_eq_ok {p : Path} {target : Target} :
    fs.resolve purpose p = .ok target ↔
      accept p = .ok () ∧ fs.walk purpose linkLimit (fs.origin p) p.steps = .ok target ∧
        ∀ place, target = .present place → fs.get place ≠ none := by
  rw [resolve_eq]
  cases accept p with
  | error fault => simp
  | ok =>
    cases fs.walk purpose linkLimit (fs.origin p) p.steps with
    | error fault => simp
    | ok found =>
      cases found with
      | absent place =>
        constructor
        · rintro ⟨⟩
          exact ⟨rfl, rfl, nofun⟩
        · rintro ⟨-, same, -⟩
          exact same
      | present place =>
        by_cases there : fs.get place = none
        · simp only [there, Option.isNone_none, if_true, reduceCtorEq, false_iff]
          rintro ⟨-, ⟨⟩, some_⟩
          exact some_ place rfl there
        · have some_ : (fs.get place).isNone = false := Option.isNone_eq_false_iff.2
            (Option.isSome_iff_ne_none.2 there)
          simp only [some_, Bool.false_eq_true, if_false, true_and]
          constructor
          · rintro ⟨⟩
            refine ⟨rfl, ?_⟩
            rintro _ ⟨⟩
            exact there
          · rintro ⟨same, -⟩
            exact same

theorem find_eq_ok {p : Path} {place : Place} :
    fs.find p = .ok place ↔ fs.resolve .use p = .ok (.present place) := by
  unfold find
  cases fs.resolve .use p with
  | error fault => simp [bind, Except.bind]
  | ok target => cases target <;> simp [bind, Except.bind, pure, Except.pure, throw, throwThe,
      MonadExceptOf.throw]

end FileSystem

end BuildPanel
