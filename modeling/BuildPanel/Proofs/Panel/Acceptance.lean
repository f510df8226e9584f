import BuildPanel.Proofs.Options.Json
import BuildPanel.Proofs.Panel.Intact

/-!
Which bodies are accepted. A body is taken for the option map that stands at its front, and what
stands behind that map is not looked at. So a body is dealt with as the map that it is, and refused
if it is none, except when some part at its front is a map and the whole of it is not.
-/

namespace BuildPanel

namespace Panel

open Http
open World (idlePanel toolFiles savedFiles applyNothing)

variable {p : Panel} {fs : FileSystem} {r : Request} {endpoint : Endpoint}

/-- The text is one option map, with nothing but white space around it. -/
def IsOptionMap (text : List UInt8) : Prop :=
  ∃ options, Json.readWhole OptionSet.readJson text = .ok options

/-- Some part at the front of the text is an option map, but not the whole of it. -/
def Overlong (text : List UInt8) : Prop :=
  (∃ front, front <+: text ∧ IsOptionMap front) ∧ ¬ IsOptionMap text

/-- What an endpoint that saves does with the options of a body, or with their rejection. -/
def act (p : Panel) (fs : FileSystem) (options : Except Rejection OptionSet) :
    Endpoint → FileSystem × Response
  | .apply => p.apply fs options
  | _ => p.save fs options

/-- A request is dealt with by what its whole body is: as the options that the body denotes, or else
by a refusal that changes nothing, with status 400 for what is no JSON text and 422 for a JSON text
of another type. -/
def TakesWhole (p : Panel) (fs : FileSystem) (r : Request) (endpoint : Endpoint) : Prop :=
  match Json.readWhole OptionSet.readJson r.body with
  | .ok options => p.respond fs r = p.act fs (.ok options) endpoint
  | .error failure => ∃ rejection : Rejection,
      rejection.status = (if failure.cause.category = .mismatched then 422 else 400) ∧
      p.respond fs r = (fs, rejectionAnswer endpoint rejection)

theorem respond_eq_act (saves : endpoint.Saves) (reached : endpoint? r = some endpoint) :
    p.respond fs r = p.act fs r.options endpoint := by
  rw [respond_of_endpoint? reached]
  rcases saves with rfl | rfl <;> rfl

theorem act_error (saves : endpoint.Saves) (rejection : Rejection) :
    p.act fs (.error rejection) endpoint = (fs, rejectionAnswer endpoint rejection) := by
  rcases saves with rfl | rfl <;> rfl

/-- Options that are acted upon are answered with status 200. -/
theorem status_act_ok (saves : endpoint.Saves) (options : OptionSet) :
    (p.act fs (.ok options) endpoint).2.status = 200 := by
  rcases saves with rfl | rfl
  · rfl
  · dsimp only [act, apply]
    rcases Settings.save fs p.configuration.settings options with ⟨saved, fault | _⟩
    · rfl
    dsimp only
    rcases BuildDirectory.ensure saved p.configuration.build with ⟨made, e | _⟩
    · rfl
    dsimp only
    rcases p.run made (p.configureArguments options) with ⟨ran, fault | ⟨output, status⟩⟩ <;> rfl

theorem status_rejectionAnswer (rejection : Rejection) :
    (rejectionAnswer endpoint rejection).status = rejection.status := by
  cases endpoint <;> rfl

section Accepted

variable (typed : r.contentType.any MediaType.isJson) (fits : r.body.length ≤ bodyLimit)

include typed fits

theorem options_eq : r.options =
    (Json.readFront OptionSet.readJson r.body).mapError (.unreadable r.body) := by
  unfold Request.options
  rw [if_neg (by simp [typed]), if_neg (Nat.not_lt.2 fits)]

theorem options_eq_ok {options : OptionSet} : r.options = .ok options ↔
    ∃ front, front <+: r.body ∧ Json.readWhole OptionSet.readJson front = .ok options := by
  have front := @Json.Closed.readFront_iff _ r.body _ options OptionSet.closed_readJson
  rw [options_eq typed fits]
  constructor
  · intro h
    have accepted : Json.readFront OptionSet.readJson r.body = .ok options := by
      cases read : Json.readFront OptionSet.readJson r.body with
      | error f =>
        rw [read] at h
        cases h
      | ok found =>
        rw [read] at h
        cases h
        rfl
    obtain ⟨front, rest, split_, whole⟩ := front.1 accepted
    exact ⟨front, ⟨rest, split_.symm⟩, whole⟩
  · rintro ⟨text, ⟨rest, split_⟩, whole⟩
    rw [front.2 ⟨text, rest, split_.symm, whole⟩]
    rfl

theorem options_eq_error {failure : Json.Failure}
    (h : Json.readWhole OptionSet.readJson r.body = .error failure)
    (fit : ¬ Overlong r.body) : r.options = .error (.unreadable r.body failure) := by
  rcases Json.readWhole_eq_error h with refused | ⟨options, accepted⟩
  · rw [options_eq typed fits, refused]
    rfl
  · have taken : r.options = .ok options := by
      rw [options_eq typed fits, accepted]
      rfl
    obtain ⟨front, at_front, whole⟩ := (options_eq_ok typed fits).1 taken
    refine absurd ⟨⟨front, at_front, options, whole⟩, ?_⟩ fit
    rintro ⟨other, whole⟩
    rw [h] at whole
    cases whole

/-- A body of the right type and length is taken for the option map at its front, whatever follows
it. This is the map that the whole body is, and a refusal if it is none, exactly if the body is not
such a map with something behind it. -/
theorem takesWhole_iff (p : Panel) (fs : FileSystem) (saves : endpoint.Saves)
    (reached : endpoint? r = some endpoint) :
    (∀ options, r.options = .ok options ↔
      ∃ front, front <+: r.body ∧ Json.readWhole OptionSet.readJson front = .ok options) ∧
    (p.TakesWhole fs r endpoint ↔ ¬ Overlong r.body) := by
  refine ⟨fun _ => options_eq_ok typed fits, ?_⟩
  unfold TakesWhole
  rw [respond_eq_act saves reached]
  cases whole : Json.readWhole OptionSet.readJson r.body with
  | ok options =>
    have taken : r.options = .ok options := by
      exact (options_eq_ok typed fits).2 ⟨r.body, List.prefix_rfl, whole⟩
    have fit : ¬ Overlong r.body := fun long => long.2 ⟨options, whole⟩
    simp only [taken, fit, not_false_eq_true]
  | error failure =>
    constructor
    · rintro ⟨rejection, status, answer⟩ ⟨⟨front, at_front, options, isMap⟩, -⟩
      have taken : r.options = .ok options := by
        exact (options_eq_ok typed fits).2 ⟨front, at_front, isMap⟩
      have told := @status_act_ok p fs endpoint saves options
      rw [← taken, answer, status_rejectionAnswer, status] at told
      split at told <;> cases told
    · intro fit
      refine ⟨.unreadable r.body failure, rfl, ?_⟩
      rw [options_eq_error typed fits whole fit]
      exact act_error saves _

end Accepted

/-- A request to save an option map that is empty, with a letter behind it. -/
def saveOverlong : Request :=
  ⟨"POST", "/save", some (Text.bytes "application/json"), Text.bytes "\x7b\x7dx", none⟩

theorem overlong_saveOverlong : Overlong saveOverlong.body := by
  refine ⟨⟨Text.bytes "\x7b\x7d", by decide +kernel, .empty, rfl⟩, ?_⟩
  rintro ⟨options, whole⟩
  cases whole

theorem takesWhole_iff_overlong :
    idlePanel.TakesWhole toolFiles applyNothing .apply ∧
      ¬ idlePanel.TakesWhole toolFiles saveOverlong .save := by
  refine ⟨?_, ?_⟩
  · refine (takesWhole_iff (r := applyNothing) ?_ ?_ idlePanel toolFiles (.inr rfl) ?_).2.2 ?_
    · decide +kernel
    · decide +kernel
    · decide +kernel
    · rintro ⟨-, none_⟩
      exact none_ ⟨.empty, rfl⟩
  · intro takes
    refine (takesWhole_iff (r := saveOverlong) ?_ ?_ idlePanel toolFiles (.inl rfl) ?_).2.1 takes
      overlong_saveOverlong
    · decide +kernel
    · decide +kernel
    · decide +kernel

/-- What is no JSON text as a whole is accepted and saved. -/
theorem saved_of_overlong :
    endpoint? saveOverlong = some .save ∧
    saveOverlong.contentType.any MediaType.isJson ∧
    saveOverlong.body.length ≤ bodyLimit ∧
    Json.readWhole OptionSet.readJson saveOverlong.body =
      .error ⟨.trailingCharacters, [], []⟩ ∧
    idlePanel.respond toolFiles saveOverlong = (savedFiles, saveAnswer 200 ⟨.success, none⟩) ∧
    Settings.load toolFiles idlePanel.configuration.settings = .ok none ∧
    Settings.save toolFiles idlePanel.configuration.settings .empty = (savedFiles, .ok ()) := by
  refine ⟨?_, ?_, ?_, ?_, ?_, ?_, ?_⟩
  · decide +kernel
  · decide +kernel
  · decide +kernel
  · rfl
  · rfl
  · rfl
  · rfl

end Panel

end BuildPanel
