import BuildPanel.Proofs.BuildDirectory.Ensuring
import BuildPanel.Proofs.Panel.Listing

/-!
What the page is made of: the options that are declared, with the values of the snapshot if that can
be used, and whether the build directory is there. To show the page, nothing is done to the files but
that the build directory is made; and not even that if the declarations cannot be read.
-/

namespace BuildPanel

open FileSystem

namespace Panel

open Http
open World (idlePanel)

/-- What a page is made of whose declarations are a text, and what becomes of the files. -/
structure Composed (p : Panel) (fs after : FileSystem) (text : String) (response : Response)
    (saved : Option OptionSet) (status : BuildStatus) : Prop where
  /-- The snapshot is what the text at its path reads as; there is none if it reads as nothing. -/
  snapshot : ∀ options, saved = some options ↔
    ∃ toml, fs.readText p.configuration.settings = .ok toml ∧
      OptionSet.ofToml toml.toList = .ok options
  shown : response = .html (Page.render ((OptionSet.scan text).merge saved) status)
  /-- Without a snapshot that can be used, the options are shown as they are declared. -/
  unsaved : saved = none → response = .html (Page.render (OptionSet.scan text) status)
  named : status.path = p.configuration.build.display
  honest : status.present = true ↔
    (BuildDirectory.ensure fs p.configuration.build).2 = .ok ()
  files : after = (BuildDirectory.ensure fs p.configuration.build).1
  made : MadeAlong fs after p.configuration.build

/-- If the declarations cannot be read as text, the answer tells so and the files are left as they
are. Otherwise the page is composed of what is scanned, the snapshot and the state of the build
directory, and nothing happens to the files but that this directory is made. -/
theorem page_composed (p : Panel) (fs : FileSystem) (r : Request)
    (given : p.configuration.build ≠ []) (asks : AsksForPage r) (get : r.method = "GET") :
    (∀ fault, fs.readText p.configuration.lists = .error fault →
      p.respond fs r = (fs, .plainText 500 (.whole ("Cannot read build configuration: " ++
        (Declaration.ReadFault.mk p.configuration.lists fault).message ++ "\n")))) ∧
    ∀ text, fs.readText p.configuration.lists = .ok text → ∃ saved status,
      p.Composed fs (p.respond fs r).1 text (p.respond fs r).2 saved status := by
  have answers : p.respond fs r = p.page fs := by
    rw [respond_of_endpoint? asks, handle, if_neg (by rw [get]; decide)]
  rw [answers]
  constructor
  · intro fault unreadable
    exact page_of_unreadable unreadable
  · intro text reads
    have made := BuildDirectory.madeSure_of_ensure fs given
    rw [page_of_readText reads]
    refine ⟨Settings.loadUsable fs p.configuration.settings,
      BuildDirectory.status (BuildDirectory.ensure fs p.configuration.build).1
        p.configuration.build, ?_⟩
    constructor
    case snapshot => exact fun options => Settings.loadUsable_eq_some
    case shown => rfl
    case unsaved =>
      intro unsaved
      rw [unsaved]
      rfl
    case named => rfl
    case honest => exact made.honest.symm
    case files => rfl
    case made => exact made.made

/-- The settings of these files are no snapshot, and the build directory is missing. -/
theorem page_composed_unusable : ∃ status,
    (idlePanel.respond declaringFiles ⟨"GET", "/?again", none, [], none⟩).2 =
      .html (Page.render (OptionSet.scan twoDeclarations) status) ∧
    status.present = true := by
  have lists : declaringFiles.readText idlePanel.configuration.lists = .ok twoDeclarations :=
    ok_of_toOption (by decide +kernel)
  have settings : declaringFiles.readText idlePanel.configuration.settings = .ok "?" :=
    ok_of_toOption (by decide +kernel)
  have malformed : (OptionSet.ofToml "?".toList).toOption = none := by decide +kernel
  obtain ⟨saved, status, composed⟩ := (page_composed idlePanel declaringFiles
    ⟨"GET", "/?again", none, [], none⟩ (by decide) (by decide +kernel) rfl).2 _ lists
  have unusable : saved = none := by
    refine Option.eq_none_iff_forall_ne_some.2 fun options use => ?_
    obtain ⟨toml, reads, read⟩ := (composed.snapshot options).1 use
    obtain rfl : "?" = toml := Except.ok.inj (settings.symm.trans reads)
    rw [read] at malformed
    cases malformed
  refine ⟨status, composed.unsaved unusable, composed.honest.2 ?_⟩
  exact (BuildDirectory.ensure_eq_ok_iff (by decide)).2 (by decide +kernel)

end Panel

end BuildPanel
