import BuildPanel.Proofs.FileSystem.Make

/-!
Files to which nothing has happened but that missing directories have been made. What could be read
before can be read afterwards; and whatever is made along some paths is named by one of them.
-/

namespace BuildPanel

namespace FileSystem

/-- At all places of a region nothing has happened but that directories have been made where nothing
lay. -/
structure FurnishedOn (K : Place → Prop) (fs fs' : FileSystem) : Prop where
  furnishes : ∀ q, K q → fs'.get q = fs.get q ∨ fs.get q = none ∧ fs'.get q = some .directory
  here : fs'.here = fs.here

/-- Nothing at all has happened but that. -/
abbrev Furnished (fs fs' : FileSystem) : Prop :=
  FurnishedOn (fun _ => True) fs fs'

variable {K : Place → Prop} {fs fs' fs'' : FileSystem} {p : Path} {s q : Place}

theorem AgreeOn.furnishedOn (h : AgreeOn K fs fs') : FurnishedOn K fs fs' :=
  ⟨fun q hq => .inl (h.get q hq), h.here⟩

namespace FurnishedOn

theorem refl (K : Place → Prop) (fs : FileSystem) : FurnishedOn K fs fs :=
  (AgreeOn.refl K fs).furnishedOn

theorem kept (h : FurnishedOn K fs fs') (hq : K q) {e : Entry} (lies : fs.get q = some e) :
    fs'.get q = some e := by
  rcases h.furnishes q hq with same | ⟨free, -⟩
  · rw [same, lies]
  · rw [lies] at free
    cases free

theorem trans (h : FurnishedOn K fs fs') (h' : FurnishedOn K fs' fs'') :
    FurnishedOn K fs fs'' := by
  refine ⟨?_, h'.here.trans h.here⟩
  intro q hq
  rcases h.furnishes q hq with same | ⟨free, made⟩
  · rw [← same]
    exact h'.furnishes q hq
  · exact .inr ⟨free, h'.kept hq made⟩

theorem mono {L : Place → Prop} (h : FurnishedOn K fs fs') (sub : ∀ q, L q → K q) :
    FurnishedOn L fs fs' :=
  ⟨fun q hq => h.furnishes q (sub q hq), h.here⟩

theorem growsOn (h : FurnishedOn K fs fs') : GrowsOn K fs fs' := by
  refine ⟨?_, h.here⟩
  intro q hq
  rcases h.furnishes q hq with same | ⟨free, made⟩
  · rw [same]
    exact .refl _
  · rw [free, made]
    exact .newDirectory

theorem put_directory (free : fs.get s = none) : Furnished fs (fs.put s .directory) := by
  refine ⟨?_, rfl⟩
  intro q _
  rw [get_put fs .directory q (ne_root_of_get free)]
  by_cases same : q = s
  · subst same
    exact .inr ⟨free, if_pos rfl⟩
  · exact .inl (if_neg same)

end FurnishedOn

/-! ### Finding and reading -/

/-- What a path leads to when its contents are read. -/
theorem read_eq_ok {contents : List UInt8} : fs.read p = .ok contents ↔
    ∃ s runnable, fs.find p = .ok s ∧ fs.get s = some (.file contents runnable) := by
  unfold read
  cases fs.find p with
  | error fault => simp [bind, Except.bind]
  | ok s =>
    cases lies : fs.get s with
    | none => simp [lies, bind, Except.bind, throw, throwThe, MonadExceptOf.throw]
    | some e =>
      cases e with
      | file held runnable =>
        simp only [bind, Except.bind, lies, pure, Except.pure, Except.ok.injEq]
        constructor
        · rintro rfl
          exact ⟨s, runnable, rfl, lies⟩
        · rintro ⟨_, _, rfl, same⟩
          rw [lies] at same
          cases same
          rfl
      | _ => simp [lies, bind, Except.bind, throw, throwThe, MonadExceptOf.throw]

theorem read_of_furnishedOn (h : FurnishedOn K fs fs') (confined : fs.Confined K p)
    {contents : List UInt8} (reads : fs.read p = .ok contents) : fs'.read p = .ok contents := by
  obtain ⟨s, runnable, found, lies⟩ := read_eq_ok.1 reads
  obtain ⟨-, walks, -⟩ := resolve_eq_ok.1 (find_eq_ok.1 found)
  have within : K s := confined.target walks
  exact read_eq_ok.2 ⟨s, runnable, find_grows h.growsOn confined found, h.kept within lies⟩

theorem readText_eq_ok {text : String} : fs.readText p = .ok text ↔
    ∃ contents, fs.read p = .ok contents ∧ Text.decode? contents = some text.toList := by
  unfold readText
  cases fs.read p with
  | error fault => simp [bind, Except.bind]
  | ok contents =>
    cases decoded : Text.decode? contents with
    | none => simp [decoded, bind, Except.bind, throw, throwThe, MonadExceptOf.throw]
    | some chars =>
      simp only [bind, Except.bind, decoded, pure, Except.pure, Except.ok.injEq, exists_eq_left',
        Option.some.injEq]
      constructor
      · rintro rfl
        exact String.toList_ofList.symm
      · rintro rfl
        exact String.ofList_toList

theorem readText_of_furnishedOn (h : FurnishedOn K fs fs') (confined : fs.Confined K p)
    {text : String} (reads : fs.readText p = .ok text) : fs'.readText p = .ok text := by
  obtain ⟨contents, bytes, decoded⟩ := readText_eq_ok.1 reads
  exact readText_eq_ok.2 ⟨contents, read_of_furnishedOn h confined bytes, decoded⟩

theorem confined_everywhere (fs : FileSystem) (p : Path) : fs.Confined (fun _ => True) p :=
  keepsTo_everywhere _ _ _

/-! ### Making directories -/

theorem makeLast_furnished (fs : FileSystem) (p : Path) : Furnished fs (fs.makeLast p).1 := by
  unfold makeLast
  cases free : fs.vacancy p with
  | ok s =>
    obtain ⟨_, _, _, _, none⟩ := vacancy_ok free
    exact .put_directory none
  | error fault => exact .refl _ fs

theorem makeAlong_furnished (fs : FileSystem) (ps : List Path) :
    Furnished fs (fs.makeAlong ps).1 := by
  induction ps with
  | nil => exact .refl _ fs
  | cons p above ih =>
    rw [makeAlong_cons]
    split
    · exact .refl _ fs
    split
    · split
      · next made fault outcome =>
        rw [outcome] at ih
        exact ih
      · next made outcome =>
        rw [outcome] at ih
        exact ih.trans (makeLast_furnished made p)
    · exact makeLast_furnished fs p

/-- Some place at which nothing lay has been furnished. -/
def Adds (fs fs' : FileSystem) (q : Place) : Prop :=
  fs.get q = none ∧ fs'.get q ≠ none

theorem FurnishedOn.directory_of_adds (h : FurnishedOn K fs fs') (hq : K q)
    (added : Adds fs fs' q) : fs'.get q = some .directory := by
  rcases h.furnishes q hq with same | ⟨-, made⟩
  · exact absurd (same.trans added.1) added.2
  · exact made

theorem named_of_makeLast (added : Adds fs (fs.makeLast p).1 q) :
    (fs.makeLast p).1.find p = .ok q := by
  obtain ⟨free, there⟩ := added
  unfold makeLast at *
  cases vacant : fs.vacancy p with
  | error fault =>
    rw [vacant] at there
    exact absurd free there
  | ok s =>
    rw [vacant] at there
    obtain ⟨_, _, _, _, none⟩ := vacancy_ok vacant
    dsimp only at there
    rw [get_put fs .directory q (ne_root_of_get none)] at there
    by_cases same : q = s
    · subst same
      exact (find_of_vacancy vacant).1
    · rw [if_neg same] at there
      exact absurd free there

/-- Whatever is made along some paths is named by one of them. -/
theorem named_of_makeAlong {ps : List Path} (added : Adds fs (fs.makeAlong ps).1 q) :
    ∃ p ∈ ps, (fs.makeAlong ps).1.find p = .ok q := by
  induction ps with
  | nil => exact absurd added.1 added.2
  | cons p above ih =>
    rw [makeAlong_cons] at *
    split at added
    · exact absurd added.1 added.2
    · next given =>
      rw [if_neg given]
      split at added
      · next missing =>
        rw [if_pos missing]
        have before := makeAlong_furnished fs above
        generalize fs.makeAlong above = r at *
        obtain ⟨made, fault | _⟩ := r
        · obtain ⟨p', member, found⟩ := ih added
          exact ⟨p', List.mem_cons_of_mem p member, found⟩
        · -- what has been made before is still named as it was
          by_cases earlier : made.get q = none
          · exact ⟨p, List.mem_cons_self, named_of_makeLast ⟨earlier, added.2⟩⟩
          · obtain ⟨p', member, found⟩ := ih ⟨added.1, earlier⟩
            refine ⟨p', List.mem_cons_of_mem p member, ?_⟩
            exact find_grows (makeLast_furnished made p).growsOn (confined_everywhere _ _) found
      · next there =>
        rw [if_neg there]
        exact ⟨p, List.mem_cons_self, named_of_makeLast added⟩

/-- Nothing has happened but that directories have been made, each of which a path names or a path
above it. -/
structure MadeAlong (fs fs' : FileSystem) (p : Path) : Prop where
  /-- What lay somewhere lies there still. -/
  kept : ∀ q e, fs.get q = some e → fs'.get q = some e
  added : ∀ q, fs.get q = none → fs'.get q ≠ none →
    fs'.get q = some .directory ∧ ∃ above ∈ p.ancestors, fs'.find above = .ok q
  here : fs'.here = fs.here

theorem madeAlong (fs : FileSystem) (p : Path) :
    MadeAlong fs (fs.makeAlong p.ancestors).1 p := by
  have furnished := makeAlong_furnished fs p.ancestors
  refine ⟨fun q e lies => furnished.kept trivial lies, ?_, furnished.here⟩
  intro q free there
  have added : Adds fs (fs.makeAlong p.ancestors).1 q := ⟨free, there⟩
  exact ⟨furnished.directory_of_adds trivial added, named_of_makeAlong added⟩

end FileSystem

end BuildPanel
