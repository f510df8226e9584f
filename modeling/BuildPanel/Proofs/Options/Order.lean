import BuildPanel.Proofs.Declaration.Scanned
import BuildPanel.Proofs.Invocation
import BuildPanel.Proofs.Json.Object
import BuildPanel.Proofs.Options.Json
import BuildPanel.Proofs.Page.Inputs
import BuildPanel.Proofs.Settings.Snapshot

/-!
The order of options. A set takes its names, where they stand first, and their last entries from the
declarations of a text or from the members of a JSON object; and wherever a set goes it is listed in
its own order: merged with a snapshot of any other order, saved to a file, handed to the build tool
and shown on the page.
-/

namespace BuildPanel

namespace OptionSet

/-- A set collects members: each name once, where it stands first, with the entry that stands
last. -/
structure Collects (options : OptionSet) (members : List (String × OptionEntry)) : Prop where
  once : options.names.Nodup
  first : options.names = (members.map Prod.fst).eraseDups
  last : ∀ name entry, (name, entry) ∈ options.toList ↔
    ∃ before after, members = before ++ (name, entry) :: after ∧ ∀ m ∈ after, m.1 ≠ name

/-- Inserting members one after another collects them, and nothing else does. -/
theorem collects_iff {options : OptionSet} {members : List (String × OptionEntry)} :
    options.Collects members ↔ options = ofList members := by
  constructor
  · intro h
    refine ext_find? (h.first.trans (names_ofList members).symm) fun name => ?_
    refine Option.ext fun entry => ?_
    rw [find?_eq_some_iff, h.last, find?_ofList_eq_some_iff]
  · rintro rfl
    constructor
    case once => exact (ofList members).nodup
    case first => exact names_ofList members
    case last => exact fun _ _ => find?_eq_some_iff.symm.trans find?_ofList_eq_some_iff

/-- A set is decoded if and only if an object stands there whose members it collects. -/
theorem readJson_eq_ok {options : OptionSet} {s rest : Json.Input} :
    readJson s = .ok (options, rest) ↔
      ∃ members, Json.Object OptionEntry.readJson members s rest ∧ options.Collects members := by
  simp only [collects_iff]
  exact Json.readMap_eq_ok OptionEntry.local_readJson

/-- A set is listed in its order wherever it goes. -/
structure KeepsOrder (options : OptionSet) : Prop where
  /-- Merging with a snapshot, whatever its order. -/
  merged : ∀ saved, (options.merge saved).names = options.names
  /-- The tables of the file that has been saved, in the order of the file. -/
  saved : ∀ fs fs' path, Settings.save fs path options = (fs', .ok ()) →
    ∃ text tables, fs'.readText path = .ok text ∧ Toml.document? text.toList = some tables ∧
      tables.map (fun t => String.ofList t.1) = options.names
  /-- The arguments of a configuration, behind the source. -/
  passed : ∀ source, ∃ definitions, Invocation.configure source options = source :: definitions ∧
    definitions.map Invocation.defined? = options.toList.map fun m => some (m.1, m.2.value)
  /-- The checkboxes of the page. -/
  shown : ∀ status, Page.inputs (Page.render options status).toList = options.toList

/-- The tables of a document bear the names of the options, in their order. -/
theorem tables_toToml (options : OptionSet) : ∃ tables,
    Toml.document? options.toToml = some tables ∧
      tables.map (fun t => String.ofList t.1) = options.names := by
  refine ⟨_, document?_toToml options, ?_⟩
  rw [List.map_map]
  exact List.map_congr_left fun m _ => String.ofList_toList

theorem keepsOrder (options : OptionSet) : options.KeepsOrder where
  merged := options.names_merge
  saved := by
    intro fs fs' path saved
    obtain ⟨tables, found, names⟩ := options.tables_toToml
    refine ⟨_, tables, Settings.readText_of_saved saved, ?_, names⟩
    rw [String.toList_ofList, found]
  passed source := Invocation.defined?_configure source options
  shown := Page.inputs_render options

/-- From its source to every use of it, a set has one order: that in which the names are declared
in a text, or stand in a JSON object, for the first time. -/
theorem one_order :
    (∀ text, ∃ found, Declaration.Search text.toList 0 found ∧
      (scan text).Collects (found.map Declaration.Occurrence.member)) ∧
    (∀ s rest options, readJson s = .ok (options, rest) ↔
      ∃ members, Json.Object OptionEntry.readJson members s rest ∧ options.Collects members) ∧
    ∀ options : OptionSet, options.KeepsOrder := by
  refine ⟨fun text => ?_, fun s rest options => readJson_eq_ok, keepsOrder⟩
  obtain ⟨found, search, scanned⟩ := Declaration.exists_search_scan text
  exact ⟨found, search, collects_iff.2 scanned⟩

end OptionSet

end BuildPanel
