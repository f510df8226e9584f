import BuildPanel.Proofs.Panel.Lock

/-!
Requests one after another, and when their turns come. An action has its turn when it gets the
lock; a request that is answered without the lock has its turn as it is answered, and the page has
none. What an action does when it has its turn is the same as what its endpoint does.
-/

namespace BuildPanel

namespace Panel

open Http

/-- Serves requests one at a time. -/
def serve (p : Panel) (fs : FileSystem) : List Request → FileSystem × List Response
  | [] => (fs, [])
  | r :: rest =>
    let (fs, response) := p.respond fs r
    let (fs, responses) := p.serve fs rest
    (fs, response :: responses)

/-- The endpoint that a request reaches, if its method is admitted there. -/
def endpoint? (r : Request) : Option Endpoint :=
  (Endpoint.ofPath? r.path).filter (·.methods.contains r.method)

/-- Whether a request asks for the page. -/
def AsksForPage (r : Request) : Prop :=
  endpoint? r = some .page

instance (r : Request) : Decidable (AsksForPage r) :=
  inferInstanceAs (Decidable (endpoint? r = some .page))

/-- The action that a request asks for, if it asks for one. -/
def action? (r : Request) : Option Action :=
  match endpoint? r, r.options with
  | some .clean, _ => some .clean
  | some .build, _ => some (.build r.patience)
  | some .apply, .ok options => some (.apply options)
  | _, _ => none

/-- Makes the directory after it has been wiped. -/
def remake (p : Panel) (fs : FileSystem) : FileSystem × Response :=
  let (fs, outcome) := BuildDirectory.ensure fs p.configuration.build
  (fs, cleanAnswer outcome)

/-- Wipes the directory, which is there, and makes it anew. -/
def empty (p : Panel) (fs : FileSystem) : FileSystem × Response :=
  match BuildDirectory.wipe fs p.configuration.build with
  | (fs, .error e) => (fs, cleanAnswer (.error e))
  | (fs, .ok ()) => p.remake fs

/-- Runs the build tool for an action in the directory, which is there. -/
def launch (p : Panel) (fs : FileSystem) (action : Action) : FileSystem × Response :=
  match p.start fs (p.arguments action) with
  | .error fault => (fs, World.spawnFailure action fault)
  | .ok course =>
    let (written, fs, status) := course.run fs
    (fs, World.ending action written status)

/-- What an action does under the lock. -/
def perform (p : Panel) (fs : FileSystem) (action : Action) : FileSystem × Response :=
  match BuildDirectory.ensure fs p.configuration.build, action with
  | (fs, .error e), _ => (fs, World.directoryFailure action e)
  | (fs, .ok ()), .clean => p.empty fs
  | (fs, .ok ()), _ => p.launch fs action

variable {p : Panel} {fs : FileSystem} {r : Request}

theorem serve_concat (rs : List Request) (r : Request) :
    p.serve fs (rs ++ [r]) =
      ((p.respond (p.serve fs rs).1 r).1,
        (p.serve fs rs).2 ++ [(p.respond (p.serve fs rs).1 r).2]) := by
  induction rs generalizing fs with
  | nil => rfl
  | cons first rest ih =>
    have later := @ih (p.respond fs first).1
    simp only [List.cons_append, serve, later]

/-- What an endpoint does for a request that reaches it. -/
def handle (p : Panel) (fs : FileSystem) (r : Request) : Endpoint → FileSystem × Response
  | .page =>
    ((p.page fs).1, if r.method = "HEAD" then (p.page fs).2.withoutBody else (p.page fs).2)
  | .save => p.save fs r.options
  | .clean => p.clean fs
  | .apply => p.apply fs r.options
  | .build => p.build fs r.patience

theorem respond_of_endpoint? {endpoint : Endpoint} (h : endpoint? r = some endpoint) :
    p.respond fs r = p.handle fs r endpoint := by
  obtain ⟨found, admitted⟩ := Option.filter_eq_some_iff.1 h
  unfold respond
  rw [found]
  dsimp only
  rw [admitted]
  cases endpoint <;> rfl

/-- A request that reaches no endpoint is told so, and no file plays a part in it. -/
theorem respond_of_unreached (h : endpoint? r = none) :
    ∃ response, ∀ fs, p.respond fs r = (fs, response) := by
  unfold endpoint? at h
  cases found : Endpoint.ofPath? r.path with
  | none =>
    refine ⟨.empty 404 none, fun fs => ?_⟩
    rw [respond, found]
  | some endpoint =>
    rw [found] at h
    have forbidden : endpoint.methods.contains r.method = false := by
      simpa [Option.filter] using h
    refine ⟨.empty 405 (some (",".intercalate endpoint.methods)), fun fs => ?_⟩
    rw [respond, found]
    dsimp only
    rw [forbidden]
    rfl

/-- The endpoint and the options behind an action. -/
theorem endpoint?_of_action? {action : Action} (h : action? r = some action) :
    match action with
    | .clean => endpoint? r = some .clean
    | .build patience => endpoint? r = some .build ∧ r.patience = patience
    | .apply options => endpoint? r = some .apply ∧ r.options = .ok options := by
  unfold action? at h
  cases reached : endpoint? r with
  | none =>
    rw [reached] at h
    cases h
  | some endpoint =>
    rw [reached] at h
    cases endpoint with
    | page => cases h
    | save => cases h
    | clean =>
      cases h
      rfl
    | build =>
      cases h
      exact ⟨rfl, rfl⟩
    | apply =>
      cases body : r.options with
      | error rejection =>
        rw [body] at h
        cases h
      | ok options =>
        rw [body] at h
        cases h
        exact ⟨rfl, rfl⟩

theorem respond_clean (h : action? r = some .clean) : p.respond fs r = p.perform fs .clean := by
  have reached : endpoint? r = some .clean := endpoint?_of_action? h
  rw [respond_of_endpoint? reached, handle]
  unfold clean perform
  cases BuildDirectory.ensure fs p.configuration.build with
  | mk made outcome =>
    cases outcome with
    | error e => rfl
    | ok =>
      dsimp only
      unfold empty BuildDirectory.clean
      cases BuildDirectory.wipe made p.configuration.build with
      | mk wiped outcome => cases outcome <;> rfl

theorem respond_build {patience : Option Nat} (h : action? r = some (.build patience)) :
    p.respond fs r = p.perform fs (.build patience) := by
  obtain ⟨reached, rfl⟩ : endpoint? r = some .build ∧ r.patience = patience :=
    endpoint?_of_action? h
  rw [respond_of_endpoint? reached, handle]
  unfold build perform
  cases BuildDirectory.ensure fs p.configuration.build with
  | mk made outcome =>
    cases outcome with
    | error e => rfl
    | ok =>
      dsimp only
      unfold run launch arguments
      dsimp only
      cases p.start made Invocation.build <;> rfl

theorem respond_apply {options : OptionSet} (h : action? r = some (.apply options)) :
    p.respond fs r =
      match Settings.save fs p.configuration.settings options with
      | (fs, .error fault) => (fs, applyFailure (saveFailure fault))
      | (fs, .ok ()) => p.perform fs (.apply options) := by
  obtain ⟨reached, accepted⟩ : endpoint? r = some .apply ∧ r.options = .ok options :=
    endpoint?_of_action? h
  rw [respond_of_endpoint? reached, handle, accepted]
  unfold apply
  dsimp only
  cases Settings.save fs p.configuration.settings options with
  | mk saved outcome =>
    cases outcome with
    | error fault => rfl
    | ok =>
      dsimp only
      unfold perform
      cases BuildDirectory.ensure saved p.configuration.build with
      | mk made outcome =>
        cases outcome with
        | error e => rfl
        | ok =>
          dsimp only
          unfold run launch arguments
          dsimp only
          cases p.start made (p.configureArguments options) <;> rfl

/-- A request that asks neither for an action nor for the page saves options, or is told something
that no file plays a part in. -/
theorem respond_of_none (h : action? r = none) (other : ¬ AsksForPage r) :
    (∃ options, ∀ fs, p.respond fs r = p.save fs (.ok options)) ∨
      ∃ response, ∀ fs, p.respond fs r = (fs, response) := by
  cases reached : endpoint? r with
  | some endpoint =>
    have responds := fun fs => @respond_of_endpoint? p fs r endpoint reached
    unfold action? at h
    rw [reached] at h
    cases endpoint with
    | page => exact absurd reached other
    | save =>
      cases body : r.options with
      | ok options =>
        refine .inl ⟨options, fun fs => ?_⟩
        rw [responds, handle, body]
      | error rejection =>
        refine .inr ⟨saveAnswer rejection.status ⟨.error, some rejection.reason⟩, fun fs => ?_⟩
        rw [responds, handle, body]
        rfl
    | clean => cases h
    | build => cases h
    | apply =>
      cases body : r.options with
      | ok options =>
        rw [body] at h
        cases h
      | error rejection =>
        refine .inr ⟨applyAnswer rejection.status ⟨.error, rejection.reason⟩, fun fs => ?_⟩
        rw [responds, handle, body]
        rfl
  | none => exact .inr (respond_of_unreached reached)

theorem action?_of_page (h : AsksForPage r) : action? r = none := by
  unfold action?
  rw [h]

/-- The page makes the directory, or does not get as far as that. -/
theorem respond_page (h : AsksForPage r) :
    (p.respond fs r).1 = fs ∨ (p.respond fs r).1 = (p.remake fs).1 := by
  rw [respond_of_endpoint? h, handle]
  unfold page
  dsimp only
  cases OptionSet.scanFile fs p.configuration.lists with
  | error fault => exact .inl rfl
  | ok scanned => exact .inr rfl

/-- The first phase of an action. -/
def Action.first : Action → Phase
  | .apply options => .saving options
  | action => .asking action

namespace World

theorem accept_eq (p : Panel) (fs : FileSystem) (r : Request) :
    accept p fs r =
      match endpoint? r, r.options with
      | some .clean, _ => (fs, .asking .clean)
      | some .build, _ => (fs, .asking (.build r.patience))
      | some .apply, .ok options => (fs, .saving options)
      | _, _ => ((p.respond fs r).1, .answered (p.respond fs r).2) :=
  rfl

theorem accept_of_action {action : Action} (h : action? r = some action) :
    accept p fs r = (fs, action.first) := by
  rw [accept_eq]
  have behind := endpoint?_of_action? h
  cases action with
  | clean =>
    dsimp only at behind
    rw [behind]
    rfl
  | build patience =>
    obtain ⟨reached, rfl⟩ := behind
    rw [reached]
    rfl
  | apply options =>
    obtain ⟨reached, body⟩ := behind
    rw [reached, body]
    rfl

theorem accept_of_none (h : action? r = none) :
    accept p fs r = ((p.respond fs r).1, .answered (p.respond fs r).2) := by
  rw [accept_eq]
  unfold action? at h
  cases reached : endpoint? r with
  | none => rfl
  | some endpoint =>
    rw [reached] at h
    cases endpoint with
    | page => rfl
    | save => rfl
    | clean => cases h
    | build => cases h
    | apply =>
      cases body : r.options with
      | error rejection => rfl
      | ok options =>
        rw [body] at h
        cases h

/-- The request whose turn comes with a move. -/
def turn (w w' : World) (m : Move) : Option Nat :=
  if w'.holder ≠ w.holder then w'.holder
  else
    match m with
    | .advance i =>
      match w.requests[i]?, w'.response? i with
      | some (.arrived r), some _ => if AsksForPage r then none else some i
      | some (.saving _), some _ => some i
      | _, _ => none
    | _ => none

end World

end Panel

end BuildPanel
