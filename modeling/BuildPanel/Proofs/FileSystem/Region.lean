import BuildPanel.Proofs.FileSystem.Walk

/-!
Regions of the file system. A walk that keeps to a region depends on what lies there and on
nothing else; and as long as in the region files and directories are only made, and files
overwritten, a walk that has led somewhere leads there again.
-/

namespace BuildPanel

namespace FileSystem

/-- Two file systems have the same at all places of a region. -/
structure AgreeOn (K : Place → Prop) (fs fs' : FileSystem) : Prop where
  get : ∀ q, K q → fs'.get q = fs.get q
  here : fs'.here = fs.here

/-- What may become of an entry where files and directories are made and files are overwritten. -/
inductive Grows : Option Entry → Option Entry → Prop where
  | refl (o : Option Entry) : Grows o o
  | overwritten (contents contents' : List UInt8) (runnable : Bool) :
      Grows (some (.file contents runnable)) (some (.file contents' runnable))
  | newFile (contents : List UInt8) (runnable : Bool) : Grows none (some (.file contents runnable))
  | newDirectory : Grows none (some .directory)

/-- At all places of a region, files and directories have been made and files overwritten. -/
structure GrowsOn (K : Place → Prop) (fs fs' : FileSystem) : Prop where
  grows : ∀ q, K q → Grows (fs.get q) (fs'.get q)
  here : fs'.here = fs.here

variable {K : Place → Prop} {fs fs' fs'' : FileSystem}

namespace AgreeOn

theorem refl (K : Place → Prop) (fs : FileSystem) : AgreeOn K fs fs :=
  ⟨fun _ _ => rfl, rfl⟩

theorem symm (h : AgreeOn K fs fs') : AgreeOn K fs' fs :=
  ⟨fun q hq => (h.get q hq).symm, h.here.symm⟩

theorem trans (h : AgreeOn K fs fs') (h' : AgreeOn K fs' fs'') : AgreeOn K fs fs'' :=
  ⟨fun q hq => (h'.get q hq).trans (h.get q hq), h'.here.trans h.here⟩

theorem mono {L : Place → Prop} (h : AgreeOn K fs fs') (sub : ∀ q, L q → K q) :
    AgreeOn L fs fs' :=
  ⟨fun q hq => h.get q (sub q hq), h.here⟩

theorem growsOn (h : AgreeOn K fs fs') : GrowsOn K fs fs' := by
  refine ⟨?_, h.here⟩
  intro q hq
  rw [h.get q hq]
  exact .refl _

end AgreeOn

theorem Grows.trans {a b c : Option Entry} (h : Grows a b) (h' : Grows b c) : Grows a c := by
  cases h with
  | refl => exact h'
  | overwritten =>
    cases h' with
    | refl => exact .overwritten _ _ _
    | overwritten => exact .overwritten _ _ _
  | newFile =>
    cases h' with
    | refl => exact .newFile _ _
    | overwritten => exact .newFile _ _
  | newDirectory =>
    cases h'
    exact .newDirectory

namespace Grows

theorem link {target : Path} {o : Option Entry} (h : Grows (some (.link target)) o) :
    o = some (.link target) := by
  cases h
  rfl

theorem directory {o : Option Entry} (h : Grows (some .directory) o) : o = some .directory := by
  cases h
  rfl

theorem file {contents : List UInt8} {runnable : Bool} {o : Option Entry}
    (h : Grows (some (.file contents runnable)) o) :
    ∃ contents', o = some (.file contents' runnable) := by
  cases h with
  | refl => exact ⟨contents, rfl⟩
  | overwritten _ contents' _ => exact ⟨contents', rfl⟩

theorem link_back {target : Path} {o : Option Entry} (h : Grows o (some (.link target))) :
    o = some (.link target) := by
  cases h
  rfl

end Grows

namespace GrowsOn

theorem refl (K : Place → Prop) (fs : FileSystem) : GrowsOn K fs fs :=
  (AgreeOn.refl K fs).growsOn

theorem trans (h : GrowsOn K fs fs') (h' : GrowsOn K fs' fs'') : GrowsOn K fs fs'' :=
  ⟨fun q hq => (h.grows q hq).trans (h'.grows q hq), h'.here.trans h.here⟩

theorem mono {L : Place → Prop} (h : GrowsOn K fs fs') (sub : ∀ q, L q → K q) :
    GrowsOn L fs fs' :=
  ⟨fun q hq => h.grows q (sub q hq), h.here⟩

end GrowsOn

/-- A file system in which, within a region, files and directories have been made and files
overwritten. -/
structure Grown (K : Place → Prop) (fs fs' : FileSystem) : Prop where
  grows : GrowsOn (fun _ => True) fs fs'
  elsewhere : AgreeOn (fun q => ¬ K q) fs fs'

namespace Grown

theorem refl (K : Place → Prop) (fs : FileSystem) : Grown K fs fs :=
  ⟨GrowsOn.refl _ fs, AgreeOn.refl _ fs⟩

theorem trans (h : Grown K fs fs') (h' : Grown K fs' fs'') : Grown K fs fs'' :=
  ⟨h.grows.trans h'.grows, h.elsewhere.trans h'.elsewhere⟩

theorem put {s : Place} {e : Entry} (root : s ≠ []) (within : K s)
    (grows : Grows (fs.get s) (some e)) : Grown K fs (fs.put s e) := by
  constructor
  · refine ⟨?_, rfl⟩
    intro q _
    rw [get_put fs e q root]
    by_cases same : q = s
    · rw [if_pos same, same]
      exact grows
    · rw [if_neg same]
      exact .refl _
  · refine ⟨?_, rfl⟩
    intro q outside
    rw [get_put fs e q root, if_neg]
    rintro rfl
    exact outside within

end Grown

theorem AgreeOn.put {s : Place} (agree : AgreeOn K fs fs') (root : s ≠ []) (e : Entry) :
    AgreeOn K (fs.put s e) (fs'.put s e) := by
  refine ⟨?_, agree.here⟩
  intro q hq
  rw [get_put fs e q root, get_put fs' e q root, agree.get q hq]

/-! ### Walks that keep to a region -/

/-- Whether the places that a walk looks at are of a region, if `onward` tells this of the walk once
a link has been replaced by the steps of its target. What is missing counts as a directory here: it
may be made. -/
def keepsWith (fs : FileSystem) (K : Place → Prop) (onward : Place → List Name → Prop) :
    Place → List Name → Prop
  | place, [] => K place
  | place, name :: rest => K place ∧
    match dotted? place name with
    | some next => fs.keepsWith K onward next rest
    | none =>
      match fs.get (place ++ [name]) with
      | some (.link target) => K (place ++ [name]) ∧
        onward (if target.isAbsolute then [] else place) (target.steps ++ rest)
      | _ => fs.keepsWith K onward (place ++ [name]) rest

/-- Whether the places that a walk looks at, missing directories made, are of a region. -/
def KeepsTo (fs : FileSystem) (K : Place → Prop) : (links : Nat) → Place → List Name → Prop
  | 0 => fs.keepsWith K fun _ _ => True
  | links + 1 => fs.keepsWith K (fs.KeepsTo K links)

/-- Whether a walk keeps to a region can be computed if this can be told of places. -/
instance decideKeepsWith (fs : FileSystem) (K : Place → Prop) [DecidablePred K]
    (onward : Place → List Name → Prop) [∀ place names, Decidable (onward place names)] :
    ∀ place names, Decidable (fs.keepsWith K onward place names)
  | place, [] => inferInstanceAs (Decidable (K place))
  | place, name :: rest =>
    have : Decidable (match dotted? place name with
        | some next => fs.keepsWith K onward next rest
        | none =>
          match fs.get (place ++ [name]) with
          | some (.link target) => K (place ++ [name]) ∧
            onward (if target.isAbsolute then [] else place) (target.steps ++ rest)
          | _ => fs.keepsWith K onward (place ++ [name]) rest) :=
      match dotted? place name with
      | some next => decideKeepsWith fs K onward next rest
      | none =>
        match fs.get (place ++ [name]) with
        | some (.link _) => inferInstanceAs (Decidable (_ ∧ _))
        | some (.file _ _) => decideKeepsWith fs K onward (place ++ [name]) rest
        | some .directory => decideKeepsWith fs K onward (place ++ [name]) rest
        | none => decideKeepsWith fs K onward (place ++ [name]) rest
    inferInstanceAs (Decidable (K place ∧ _))

instance decideKeepsTo (fs : FileSystem) (K : Place → Prop) [DecidablePred K] :
    ∀ links place names, Decidable (fs.KeepsTo K links place names)
  | 0 => decideKeepsWith fs K fun _ _ => True
  | links + 1 =>
    have := decideKeepsTo fs K links
    decideKeepsWith fs K (fs.KeepsTo K links)

namespace KeepsTo

variable {links fewer : Nat} {place next : Place} {name : Name} {rest names : List Name}
  {purpose : Purpose}

theorem nil_iff : fs.KeepsTo K links place [] ↔ K place := by
  cases links <;> rfl

theorem cons_iff : fs.KeepsTo K links place (name :: rest) ↔ K place ∧
    match dotted? place name with
    | some next => fs.KeepsTo K links next rest
    | none =>
      match fs.get (place ++ [name]) with
      | some (.link target) => K (place ++ [name]) ∧
        match links with
        | 0 => True
        | fewer + 1 =>
          fs.KeepsTo K fewer (if target.isAbsolute then [] else place) (target.steps ++ rest)
      | _ => fs.KeepsTo K links (place ++ [name]) rest := by
  cases links <;> rfl

theorem start (h : fs.KeepsTo K links place names) : K place := by
  cases names with
  | nil => exact nil_iff.1 h
  | cons name rest => exact (cons_iff.1 h).1

theorem looked (h : fs.KeepsTo K links place (name :: rest)) (plain : dotted? place name = none) :
    K (place ++ [name]) := by
  have onward := (cons_iff.1 h).2
  rw [plain] at onward
  dsimp only at onward
  split at onward
  · exact onward.1
  · exact onward.start

theorem goes (h : fs.KeepsTo K links place (name :: rest))
    (strides : fs.stride purpose place name rest = .goes next) : fs.KeepsTo K links next rest := by
  have onward := (cons_iff.1 h).2
  unfold stride at strides
  split at strides
  · cases strides
  cases dots : dotted? place name with
  | some after =>
    rw [dots] at onward strides
    cases strides
    exact onward
  | none =>
    rw [dots] at onward strides
    dsimp only at onward strides
    split at strides
    · cases strides
    cases entry : fs.get (place ++ [name]) with
    | none =>
      rw [entry] at strides
      by_cases last : rest = [] <;> simp [arrive, last] at strides
    | some e =>
      rw [entry] at onward strides
      cases e with
      | file contents runnable =>
        cases strides
        exact onward
      | directory =>
        cases strides
        exact onward
      | link target =>
        by_cases last : rest = [] ∧ purpose = .entry <;> simp [arrive, last] at strides

theorem follows (h : fs.KeepsTo K (fewer + 1) place (name :: rest))
    (strides : fs.stride purpose place name rest = .follows next names) :
    fs.KeepsTo K fewer next names := by
  have onward := (cons_iff.1 h).2
  unfold stride at strides
  split at strides
  · cases strides
  cases dots : dotted? place name with
  | some after =>
    rw [dots] at strides
    cases strides
  | none =>
    rw [dots] at onward strides
    dsimp only at onward strides
    split at strides
    · cases strides
    cases entry : fs.get (place ++ [name]) with
    | none =>
      rw [entry] at strides
      by_cases last : rest = [] <;> simp [arrive, last] at strides
    | some e =>
      rw [entry] at onward strides
      cases e with
      | file contents runnable => cases strides
      | directory => cases strides
      | link target =>
        by_cases last : rest = [] ∧ purpose = .entry
        · simp [arrive, last] at strides
        · rw [arrive, if_neg last] at strides
          cases strides
          exact onward.2

theorem init {xs ys : List Name} (h : fs.KeepsTo K links place (xs ++ ys)) :
    fs.KeepsTo K links place xs := by
  revert h
  refine walk_induction
    (motive := fun links place xs => fs.KeepsTo K links place (xs ++ ys) →
      fs.KeepsTo K links place xs) ?_ ?_ links place xs
  · intro links place h
    exact nil_iff.2 h.start
  · intro links place name rest onward later h
    obtain ⟨here, h⟩ := cons_iff.1 h
    refine cons_iff.2 ⟨here, ?_⟩
    cases dots : dotted? place name with
    | some next =>
      rw [dots] at h
      exact onward next h
    | none =>
      rw [dots] at h
      dsimp only at h ⊢
      split
      · next target entry =>
        rw [entry] at h
        refine ⟨h.1, ?_⟩
        cases links with
        | zero => trivial
        | succ fewer =>
          refine later fewer _ _ rfl ?_
          rw [List.append_assoc]
          exact h.2
      · next unlinked =>
        split at h
        · next target entry => exact absurd entry (unlinked target)
        · exact onward _ h

/-- The names behind a walk are walked from its end, with the links that are left. -/
theorem behind {xs ys : List Name} {a : Place} (h : fs.KeepsTo K links place (xs ++ ys))
    (more : ys ≠ []) (walks : fs.walk .use links place xs = .ok (.present a)) :
    ∃ m, fs.KeepsTo K m a ys := by
  revert h
  refine walk_use_induction (motive := fun links place xs =>
    fs.KeepsTo K links place (xs ++ ys) → ∃ m, fs.KeepsTo K m a ys) ?_ ?_ ?_ walks
  · intro links h
    exact ⟨links, h⟩
  · intro links place next name rest strides ih h
    have further := @stride_append .use fs _ nofun more place name rest
    rw [strides] at further
    exact ih (goes h further)
  · intro fewer place next name rest names strides ih h
    have further := @stride_append .use fs _ nofun more place name rest
    rw [strides] at further
    exact ih (follows h further)

/-- Where files and directories are made, a walk still keeps to the region. -/
theorem of_growsOn (grown : GrowsOn K fs fs') (h : fs.KeepsTo K links place names) :
    fs'.KeepsTo K links place names := by
  revert h
  refine walk_induction
    (motive := fun links place names => fs.KeepsTo K links place names →
      fs'.KeepsTo K links place names) ?_ ?_ links place names
  · intro links place h
    exact nil_iff.2 h.start
  · intro links place name rest onward later h
    have there : dotted? place name = none → K (place ++ [name]) := h.looked
    obtain ⟨here, h⟩ := cons_iff.1 h
    refine cons_iff.2 ⟨here, ?_⟩
    cases dots : dotted? place name with
    | some next =>
      rw [dots] at h
      exact onward next h
    | none =>
      rw [dots] at h
      dsimp only at h ⊢
      have grows := grown.grows _ (there dots)
      by_cases linked : ∃ target, fs.get (place ++ [name]) = some (.link target)
      · obtain ⟨target, entry⟩ := linked
        rw [entry] at grows h
        rw [grows.link]
        refine ⟨h.1, ?_⟩
        cases links with
        | zero => trivial
        | succ fewer => exact later fewer _ _ rfl h.2
      · have unlinked : fs.KeepsTo K links (place ++ [name]) rest := by
          split at h
          · next target entry => exact absurd ⟨target, entry⟩ linked
          · exact h
        split
        · next target entry =>
          rw [entry] at grows
          exact absurd ⟨target, grows.link_back⟩ linked
        · exact onward _ unlinked

end KeepsTo

theorem keepsTo_everywhere (links : Nat) (place : Place) (names : List Name) :
    fs.KeepsTo (fun _ => True) links place names := by
  refine walk_induction (motive := fun links place names =>
    fs.KeepsTo (fun _ => True) links place names) ?_ ?_ links place names
  · intro links place
    exact KeepsTo.nil_iff.2 trivial
  · intro links place name rest onward later
    refine KeepsTo.cons_iff.2 ⟨trivial, ?_⟩
    cases dotted? place name with
    | some next => exact onward next
    | none =>
      dsimp only
      split
      · refine ⟨trivial, ?_⟩
        cases links with
        | zero => trivial
        | succ fewer => exact later fewer _ _ rfl
      · exact onward _

variable {purpose : Purpose} {links : Nat} {place s : Place} {name : Name} {names rest : List Name}

theorem stride_congr (here : fs'.get place = fs.get place)
    (there : dotted? place name = none → fs'.get (place ++ [name]) = fs.get (place ++ [name])) :
    fs'.stride purpose place name rest = fs.stride purpose place name rest := by
  unfold stride
  rw [here]
  cases dots : dotted? place name with
  | some next => rfl
  | none => rw [there dots]

/-- A walk that keeps to a region depends only on what lies there. -/
theorem walk_congr (agree : AgreeOn K fs fs') (keeps : fs.KeepsTo K links place names) :
    fs'.walk purpose links place names = fs.walk purpose links place names := by
  revert keeps
  refine walk_induction
    (motive := fun links place names => fs.KeepsTo K links place names →
      fs'.walk purpose links place names = fs.walk purpose links place names)
    ?_ ?_ links place names
  · intro links place _
    rw [walk_nil, walk_nil]
  · intro links place name rest onward later keeps
    have same : fs'.stride purpose place name rest = fs.stride purpose place name rest :=
      stride_congr (agree.get _ keeps.start) fun plain => agree.get _ (keeps.looked plain)
    rw [walk_cons, walk_cons, same]
    cases strides : fs.stride purpose place name rest with
    | fails fault => rfl
    | ends target => rfl
    | goes next => exact onward next (keeps.goes strides)
    | follows next names =>
      cases links with
      | zero => rfl
      | succ fewer => exact later fewer next names rfl (keeps.follows strides)

/-- A walk that keeps to a region ends in it. -/
theorem KeepsTo.target {target : Target} (keeps : fs.KeepsTo K links place names)
    (walks : fs.walk purpose links place names = .ok target) : K target.place := by
  induction leads_of_walk walks with
  | nil => exact keeps.start
  | ends strides =>
    obtain ⟨plain, there, -⟩ := of_stride_ends strides
    rw [there]
    exact keeps.looked plain
  | goes strides onward ih => exact ih (keeps.goes strides) onward.walk
  | follows strides onward ih => exact ih (keeps.follows strides) onward.walk

theorem stride_grows (purpose : Purpose) (rest : List Name)
    (here : Grows (fs.get place) (fs'.get place))
    (there : dotted? place name = none →
      Grows (fs.get (place ++ [name])) (fs'.get (place ++ [name]))) :
    match fs.stride purpose place name rest with
    | .fails _ | .ends (.absent _) => True
    | onward => fs'.stride purpose place name rest = onward := by
  unfold stride
  by_cases directory : fs.get place = some .directory
  case neg => simp [directory]
  have still : fs'.get place = some .directory := by
    rw [directory] at here
    exact here.directory
  simp only [directory, still, ne_eq, not_true_eq_false, if_false]
  cases dots : dotted? place name with
  | some next => rfl
  | none =>
    dsimp only
    cases refusal? purpose name rest with
    | some fault => trivial
    | none =>
      dsimp only
      have grows := there dots
      cases entry : fs.get (place ++ [name]) with
      | none => by_cases last : rest = [] <;> simp [arrive, last]
      | some e =>
        rw [entry] at grows
        cases e with
        | file contents runnable =>
          obtain ⟨contents', same⟩ := grows.file
          rw [same]
          rfl
        | directory =>
          rw [grows.directory]
          rfl
        | link target =>
          rw [grows.link]
          by_cases last : rest = [] ∧ purpose = .entry <;> simp [arrive, last]

/-- A walk that has led somewhere leads there again after files and directories have been made. -/
theorem walk_grows (grown : GrowsOn K fs fs') (keeps : fs.KeepsTo K links place names)
    (walks : fs.walk purpose links place names = .ok (.present s)) :
    fs'.walk purpose links place names = .ok (.present s) := by
  have leads := leads_of_walk walks
  refine Leads.walk ?_
  clear walks
  generalize found : Target.present s = target at leads ⊢
  induction leads with
  | nil links place => exact .nil links place
  | @ends links place name rest target strides =>
    have step := stride_grows purpose rest (grown.grows _ keeps.start)
      fun plain => grown.grows _ (keeps.looked plain)
    rw [strides, ← found] at step
    exact .ends (found ▸ step)
  | @goes links place next name rest target strides onward ih =>
    have step := stride_grows purpose rest (grown.grows _ keeps.start)
      fun plain => grown.grows _ (keeps.looked plain)
    rw [strides] at step
    exact .goes step (ih (keeps.goes strides) found)
  | @follows fewer place next name rest names target strides onward ih =>
    have step := stride_grows purpose rest (grown.grows _ keeps.start)
      fun plain => grown.grows _ (keeps.looked plain)
    rw [strides] at step
    exact .follows step (ih (keeps.follows strides) found)

end FileSystem

end BuildPanel
