import BuildPanel.Proofs.Message
import BuildPanel.Proofs.Output.Captured
import BuildPanel.Proofs.Panel.Exclusion
import BuildPanel.Proofs.Panel.Turns

/-!
What the answers to actions tell. Each of them is a JSON text that reads as the answer of its kind,
whatever stands in the messages and whatever the build tool has printed. Its status is that of
success if and only if all that was asked for has been done, and the output of a configuration is
all that the build tool has written.
-/

namespace BuildPanel

namespace Panel

open Http
open World (idlePanel toolFiles savedFiles builtFiles applyNothing)

variable {p : Panel} {fs : FileSystem} {r : Request}

/-- The body of an answer is one JSON text, and reads as a value. -/
def Tells {α : Type} (read : Json.Reader α) (response : Response) (value : α) : Prop :=
  ∃ text, response.body = .whole text ∧ Json.readWhole read (Text.bytes text) = .ok value

theorem tells_json {α : Type} {read : Json.Reader α} {value : α} {text : List Char} (status : Nat)
    (h : Json.readWhole read (Text.encode text) = .ok value) :
    Tells read (.json status text) value := by
  refine ⟨String.ofList text, rfl, ?_⟩
  rw [Text.bytes, String.toList_ofList]
  exact h

/-! ### What has been done -/

/-- The body of a request is accepted, and its options are saved. -/
def Saves (p : Panel) (fs : FileSystem) (r : Request) (options : OptionSet) (saved : FileSystem) :
    Prop :=
  r.options = .ok options ∧
    Settings.save fs p.configuration.settings options = (saved, .ok ())

/-- The build directory is made if it is missing, and emptied. -/
def Cleans (p : Panel) (fs : FileSystem) : Prop :=
  ∃ made emptied, BuildDirectory.ensure fs p.configuration.build = (made, .ok ()) ∧
    BuildDirectory.clean made p.configuration.build = (emptied, .ok ())

/-- The options of a request are saved, the build directory is made, the build tool is started in it
with the arguments that configure the project with these options, and it writes an output and exits
with code 0. -/
def Configures (p : Panel) (fs : FileSystem) (r : Request) (output : List UInt8) : Prop :=
  ∃ options saved made course files, p.Saves fs r options saved ∧
    BuildDirectory.ensure saved p.configuration.build = (made, .ok ()) ∧
    p.start made (Invocation.configure p.configuration.project options) = .ok course ∧
    course.run made = (output, files, .code 0)

theorem Saves.unique {options options' : OptionSet} {saved saved' : FileSystem}
    (h : p.Saves fs r options saved) (h' : p.Saves fs r options' saved') :
    options = options' ∧ saved = saved' := by
  obtain ⟨accepted, written⟩ := h
  obtain ⟨accepted', written'⟩ := h'
  obtain rfl := Except.ok.inj (accepted.symm.trans accepted')
  exact ⟨rfl, congrArg Prod.fst (written.symm.trans written')⟩

/-- A configuration has one output. -/
theorem Configures.unique {output output' : List UInt8} (h : p.Configures fs r output)
    (h' : p.Configures fs r output') : output = output' := by
  obtain ⟨options, saved, made, course, files, saves, makes, starts, runs⟩ := h
  obtain ⟨options', saved', made', course', files', saves', makes', starts', runs'⟩ := h'
  obtain ⟨rfl, rfl⟩ := saves.unique saves'
  obtain rfl := congrArg Prod.fst (makes.symm.trans makes')
  obtain rfl := Except.ok.inj (starts.symm.trans starts')
  exact congrArg Prod.fst (runs.symm.trans runs')

/-! ### What is told -/

theorem ofSuccess_eq_success {succeeded : Bool} :
    Status.ofSuccess succeeded = .success ↔ succeeded = true := by
  cases succeeded <;> decide

theorem save_tells (reached : endpoint? r = some .save) :
    ∃ told, Tells SaveResponse.readJson (p.respond fs r).2 told ∧
      (told.status = .success ↔ ∃ options saved, p.Saves fs r options saved) := by
  rw [respond_of_endpoint? reached]
  dsimp only [handle, save, Saves]
  cases accepted : r.options with
  | error rejection =>
    refine ⟨_, tells_json _ (SaveResponse.readWhole_toJson _), ?_⟩
    simp
  | ok options =>
    refine ⟨_, tells_json _ (SaveResponse.readWhole_toJson _), ?_⟩
    rw [ofSuccess_eq_success]
    rcases written : Settings.save fs p.configuration.settings options with ⟨saved, fault | _⟩
    · simp [written, Except.isOk, Except.toBool]
    · simp [written, Except.isOk, Except.toBool]

theorem cleanAnswer_tells (outcome : Except BuildDirectory.DirectoryError Unit) :
    ∃ told, Tells CleanResponse.readJson (cleanAnswer outcome) told ∧
      (told.status = .success ↔ outcome = .ok ()) := by
  refine ⟨_, tells_json _ (CleanResponse.readWhole_toJson _), ?_⟩
  rcases outcome with e | _ <;> simp

theorem clean_tells (reached : endpoint? r = some .clean) :
    ∃ told, Tells CleanResponse.readJson (p.respond fs r).2 told ∧
      (told.status = .success ↔ p.Cleans fs) := by
  rw [respond_of_endpoint? reached]
  dsimp only [handle, clean, Cleans]
  rcases makes : BuildDirectory.ensure fs p.configuration.build with ⟨made, e | _⟩
  · obtain ⟨told, reads, status⟩ := cleanAnswer_tells (.error e)
    refine ⟨told, reads, status.trans ?_⟩
    simp
  · obtain ⟨told, reads, status⟩ :=
      cleanAnswer_tells (BuildDirectory.clean made p.configuration.build).2
    refine ⟨told, reads, status.trans ?_⟩
    rcases empties : BuildDirectory.clean made p.configuration.build with ⟨emptied, e | _⟩
    · simp [empties]
    · simp [empties]

/-- What the answer to applying tells. -/
def TellsConfigured (p : Panel) (fs : FileSystem) (r : Request) (response : Response) : Prop :=
  ∃ told, Tells ApplyResponse.readJson response told ∧
    (told.status = .success ↔ ∃ output, p.Configures fs r output) ∧
    ∀ output, p.Configures fs r output → told.output = String.ofList (Text.decodeLossy output)

/-- Where something fails, the answer is one of failure, and nothing has been configured. -/
theorem applyAnswer_tells (status : Nat) (message : String)
    (fails : ∀ output, ¬ p.Configures fs r output) :
    p.TellsConfigured fs r (applyAnswer status ⟨.error, message⟩) := by
  refine ⟨_, tells_json _ (ApplyResponse.readWhole_toJson _), iff_of_false nofun ?_, ?_⟩
  · rintro ⟨output, done⟩
    exact fails output done
  · exact fun output done => absurd done (fails output)

/-- After the build tool has ended, the answer tells all that it has written, and success if it has
exited with code 0. -/
theorem applyEnding_tells {output : List UInt8} {status : ExitStatus}
    (ended : ∀ output', p.Configures fs r output' ↔ output' = output ∧ status = .code 0) :
    p.TellsConfigured fs r (applyEnding output status) := by
  refine ⟨_, tells_json _ (ApplyResponse.readWhole_toJson _), ?_, ?_⟩
  · rw [Output.Captured.ofEvents_drain, ofSuccess_eq_success]
    simp [ended, ExitStatus.succeeded]
  · intro output' done
    rw [Output.Captured.ofEvents_drain, ((ended output').1 done).1]

theorem apply_tells (reached : endpoint? r = some .apply) :
    p.TellsConfigured fs r (p.respond fs r).2 := by
  rw [respond_of_endpoint? reached]
  dsimp only [handle, apply]
  rcases accepted : r.options with rejection | options
  · exact applyAnswer_tells _ _ fun output => by simp [Configures, Saves, accepted]
  dsimp only
  rcases written : Settings.save fs p.configuration.settings options with ⟨saved, fault | _⟩
  · exact applyAnswer_tells _ _ fun output => by simp [Configures, Saves, accepted, written]
  dsimp only
  rcases makes : BuildDirectory.ensure saved p.configuration.build with ⟨made, e | _⟩
  · exact applyAnswer_tells _ _ fun output => by simp [Configures, Saves, accepted, written, makes]
  dsimp only [run, configureArguments]
  rcases starts : p.start made (Invocation.configure p.configuration.project options) with
    fault | course
  · exact applyAnswer_tells _ _ fun output => by
      simp [Configures, Saves, accepted, written, makes, starts]
  · refine applyEnding_tells fun output => ?_
    simp [Configures, Saves, accepted, written, makes, starts, Prod.ext_iff, eq_comm]

/-! ### The contract -/

theorem endpoint?_of_post {endpoint : Endpoint} (posted : r.method = "POST")
    (found : Endpoint.ofPath? r.path = some endpoint) (admits : endpoint.methods = ["POST"]) :
    endpoint? r = some endpoint := by
  simp [endpoint?, found, admits, posted]

/-- An action that is posted is answered with a JSON text that reads as the answer of its kind and
tells the truth, whatever the files, the header and the body of the request, the build tool and what
it prints: success if the options have been accepted and saved; if the build directory has been made
and emptied; if the options have been accepted and saved, the directory has been made, and the build
tool was started with these options and exited with code 0. Then its whole output is told. -/
theorem truthful_of_action (p : Panel) (fs : FileSystem) (r : Request)
    (posted : r.method = "POST") :
    (r.path = "/save" → ∃ told, Tells SaveResponse.readJson (p.respond fs r).2 told ∧
      (told.status = .success ↔ ∃ options saved, p.Saves fs r options saved)) ∧
    (r.path = "/clean" → ∃ told, Tells CleanResponse.readJson (p.respond fs r).2 told ∧
      (told.status = .success ↔ p.Cleans fs)) ∧
    (r.path = "/apply" → ∃ told, Tells ApplyResponse.readJson (p.respond fs r).2 told ∧
      (told.status = .success ↔ ∃ output, p.Configures fs r output) ∧
      ∀ output, p.Configures fs r output →
        told.output = String.ofList (Text.decodeLossy output)) := by
  refine ⟨fun path => ?_, fun path => ?_, fun path => ?_⟩
  · exact save_tells (endpoint?_of_post posted (by rw [path]; rfl) rfl)
  · exact clean_tells (endpoint?_of_post posted (by rw [path]; rfl) rfl)
  · exact apply_tells (endpoint?_of_post posted (by rw [path]; rfl) rfl)

/-- A panel whose build tool prints a quote, a byte that is no text and a newline. -/
def garbledPanel : Panel :=
  { idlePanel with
    machine := ⟨fun _ => some fun _ _ => .ofRun fun fs => ([34, 255, 10], fs, .code 0), []⟩ }

theorem configures_garbled : garbledPanel.Configures toolFiles applyNothing [34, 255, 10] :=
  ⟨.empty, savedFiles, builtFiles, _, builtFiles, ⟨rfl, rfl⟩, rfl, rfl, rfl⟩

theorem truthful_garbled : applyNothing.method = "POST" ∧ applyNothing.path = "/apply" ∧
    ∃ told, Tells ApplyResponse.readJson (garbledPanel.respond toolFiles applyNothing).2 told ∧
      told.status = .success ∧ told.output = String.ofList ['"', '\uFFFD', '\n'] := by
  have path : applyNothing.path = "/apply" := by decide +kernel
  obtain ⟨told, reads, status, output⟩ :=
    (truthful_of_action garbledPanel toolFiles applyNothing rfl).2.2 path
  have decoded : Text.decodeLossy [34, 255, 10] = ['"', '\uFFFD', '\n'] := by
    simp [Text.decodeLossy, Text.sequences_cons, Text.sequence, Text.within]
  refine ⟨rfl, path, told, reads, status.2 ⟨_, configures_garbled⟩, ?_⟩
  rw [output _ configures_garbled, decoded]

end Panel

end BuildPanel
