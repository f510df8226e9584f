import BuildPanel.Proofs.Panel.Acceptance

/-!
What is saved is what the page shows next. The values that a user sets in the options of a page,
posted in any order and written in any way, make up the snapshot once they have been saved; and the
next page lists the same options as before, with these values.
-/

namespace BuildPanel

namespace Panel

open Http
open World (idlePanel)

variable {p : Panel} {fs after : FileSystem} {r : Request}

/-- The options that the page lists, unless the declarations cannot be read. -/
def listed? (p : Panel) (fs : FileSystem) : Option OptionSet :=
  (OptionSet.scanFile fs p.configuration.lists).toOption.map
    (·.merge (Settings.loadUsable fs p.configuration.settings))

theorem listed?_eq {text : String} (reads : fs.readText p.configuration.lists = .ok text) :
    p.listed? fs = some ((OptionSet.scan text).merge
      (Settings.loadUsable fs p.configuration.settings)) := by
  unfold listed? OptionSet.scanFile
  rw [reads]
  rfl

theorem page_of_unreadable {fault : Fault}
    (unreadable : fs.readText p.configuration.lists = .error fault) :
    p.page fs = (fs, .plainText 500 (.whole ("Cannot read build configuration: " ++
      (Declaration.ReadFault.mk p.configuration.lists fault).message ++ "\n"))) := by
  unfold page OptionSet.scanFile
  dsimp only
  rw [unreadable]

theorem page_of_readText {text : String}
    (reads : fs.readText p.configuration.lists = .ok text) :
    p.page fs = ((BuildDirectory.ensure fs p.configuration.build).1,
      .html (Page.render
        ((OptionSet.scan text).merge (Settings.loadUsable fs p.configuration.settings))
        (BuildDirectory.status (BuildDirectory.ensure fs p.configuration.build).1
          p.configuration.build))) := by
  unfold page OptionSet.scanFile
  dsimp only
  rw [reads]

/-- The page is made of the options that it lists, and of the state of the build directory. -/
theorem page_of_listed? {options : OptionSet} (h : p.listed? fs = some options) :
    ∃ status, (p.page fs).2 = .html (Page.render options status) := by
  cases reads : fs.readText p.configuration.lists with
  | error fault =>
    unfold listed? OptionSet.scanFile at h
    rw [reads] at h
    cases h
  | ok text =>
    obtain rfl : _ = options := Option.some.inj ((listed?_eq reads).symm.trans h)
    exact ⟨_, congrArg Prod.snd (page_of_readText reads)⟩

theorem save_of_success {options : OptionSet}
    (h : p.save fs (.ok options) = (after, saveAnswer 200 ⟨.success, none⟩)) :
    Settings.save fs p.configuration.settings options = (after, .ok ()) := by
  have differ : saveAnswer 200 ⟨.error, none⟩ ≠ saveAnswer 200 ⟨.success, none⟩ := by
    decide +kernel
  dsimp only [save] at h
  cases saves : Settings.save fs p.configuration.settings options with
  | mk saved outcome =>
    rw [saves] at h
    cases outcome with
    | error fault => exact absurd (congrArg Prod.snd h) differ
    | ok => rw [show saved = after from congrArg Prod.fst h]

/-- A set is posted as JSON, in any of the ways to write it, and has been saved when this is
answered. -/
structure Posts (p : Panel) (before : FileSystem) (r : Request) (posted : OptionSet)
    (after : FileSystem) : Prop where
  reached : endpoint? r = some .save
  typed : r.contentType.any MediaType.isJson
  fits : r.body.length ≤ bodyLimit
  written : ∃ body, posted.Spells body ∧ r.body = Text.encode body
  succeeds : p.respond before r = (after, saveAnswer 200 ⟨.success, none⟩)

theorem Posts.saved {before : FileSystem} {posted : OptionSet}
    (h : p.Posts before r posted after) :
    Settings.save before p.configuration.settings posted = (after, .ok ()) := by
  obtain ⟨body, spells, written⟩ := h.written
  have accepted : r.options = .ok posted := by
    refine (options_eq_ok h.typed h.fits).2 ⟨r.body, List.prefix_rfl, ?_⟩
    rw [written]
    exact OptionSet.readWhole_of_spells spells
  have succeeds := h.succeeds
  rw [respond_of_endpoint? h.reached, handle, accepted] at succeeds
  exact save_of_success succeeds

/-- Values that are set in the options of a page, and posted in any order as any JSON text, are the
snapshot once they have been saved. The declarations are left alone; and every page that is made
from the same declarations and this snapshot lists the options of the first page with these
values. -/
theorem listed_after_save (p : Panel) (fs before after : FileSystem) (text : String)
    (shown posted : OptionSet) (value : String → Bool) (r : Request)
    (lists : fs.readText p.configuration.lists = .ok text) (shows : p.listed? fs = some shown)
    (set_ : posted.toList.Perm (shown.setValues value).toList)
    (same : before.readText p.configuration.lists = .ok text)
    (posts : p.Posts before r posted after)
    (apart : after.find p.configuration.settings ≠ after.find p.configuration.lists) :
    Settings.load after p.configuration.settings = .ok (some posted) ∧
    after.readText p.configuration.lists = .ok text ∧
    ∀ later, later.readText p.configuration.lists = .ok text →
      later.readText p.configuration.settings = after.readText p.configuration.settings →
      p.listed? later = some (shown.setValues value) ∧
      ∀ q, AsksForPage q → q.method = "GET" →
        ∃ status, (p.respond later q).2 = .html (Page.render (shown.setValues value) status) := by
  have loads : Settings.load after p.configuration.settings = .ok (some posted) :=
    Settings.load_of_save posts.saved
  refine ⟨loads, Settings.readText_of_save posts.saved apart same, ?_⟩
  intro later same' kept
  have usable : Settings.loadUsable later p.configuration.settings = some posted := by
    rw [Settings.loadUsable, Settings.load_congr kept, loads]
  obtain rfl : _ = shown := Option.some.inj ((listed?_eq lists).symm.trans shows)
  have lists' := listed?_eq same'
  rw [usable, OptionSet.merge_of_perm set_] at lists'
  refine ⟨lists', ?_⟩
  intro q asks get
  obtain ⟨status, answer⟩ := page_of_listed? lists'
  refine ⟨status, ?_⟩
  rw [respond_of_endpoint? asks, handle, if_neg (by rw [get]; decide), answer]

/-- A text that declares two options. -/
def twoDeclarations : String :=
  "option(A \"x\" ON)\noption(B \"y\" OFF)"

/-- A source tree with these declarations, and a settings file that is no snapshot. -/
def declaringFiles : FileSystem :=
  ⟨[([Path.ofString "CMakeLists.txt"], .file (Text.bytes twoDeclarations) false),
    ([Path.ofString "s"], .file (Text.bytes "?") false)], []⟩

/-- Both options with the other value, the second one first. -/
def otherWay : OptionSet :=
  .ofList [("B", ⟨"y", true⟩), ("A", ⟨"x", false⟩)]

def saveOtherWay : Request :=
  ⟨"POST", "/save", some (Text.bytes "application/json"), Text.encode otherWay.toJson, none⟩

theorem posts_otherWay : idlePanel.Posts declaringFiles saveOtherWay otherWay
    (idlePanel.respond declaringFiles saveOtherWay).1 where
  reached := by decide +kernel
  typed := by decide +kernel
  fits := by decide +kernel
  written := ⟨_, otherWay.spells_toJson, rfl⟩
  succeeds := by
    have told : (idlePanel.respond declaringFiles saveOtherWay).2 =
        saveAnswer 200 ⟨.success, none⟩ := by decide +kernel
    rw [← told]

theorem listed_after_save_otherWay :
    idlePanel.listed? declaringFiles =
      some (.ofList [("A", ⟨"x", true⟩), ("B", ⟨"y", false⟩)]) ∧
    idlePanel.Posts declaringFiles saveOtherWay otherWay
      (idlePanel.respond declaringFiles saveOtherWay).1 ∧
    idlePanel.listed? (idlePanel.respond declaringFiles saveOtherWay).1 =
      some (.ofList [("A", ⟨"x", false⟩), ("B", ⟨"y", true⟩)]) := by
  have shows : idlePanel.listed? declaringFiles =
      some (.ofList [("A", ⟨"x", true⟩), ("B", ⟨"y", false⟩)]) := by decide +kernel
  have lists : declaringFiles.readText idlePanel.configuration.lists = .ok twoDeclarations := by
    exact FileSystem.ok_of_toOption (by decide +kernel)
  have apart : (idlePanel.respond declaringFiles saveOtherWay).1.find
        idlePanel.configuration.settings ≠
      (idlePanel.respond declaringFiles saveOtherWay).1.find idlePanel.configuration.lists := by
    intro same
    exact absurd (congrArg Except.toOption same) (by decide +kernel)
  obtain ⟨-, lists', pages⟩ := listed_after_save idlePanel declaringFiles declaringFiles _
    twoDeclarations _ otherWay (· = "B") saveOtherWay lists shows (by decide +kernel) lists
    posts_otherWay apart
  refine ⟨shows, posts_otherWay, (pages _ lists' rfl).1.trans ?_⟩
  decide +kernel

end Panel

end BuildPanel
