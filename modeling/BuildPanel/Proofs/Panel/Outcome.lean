import BuildPanel.Proofs.Output.Pieces
import BuildPanel.Proofs.Panel.Turns
import BuildPanel.Proofs.Relay.Attentive

/-!
What the answer to a build tells. It ends with the sentinel of success iff the build directory could
be made, the build tool could be started in it and has exited with code 0, and with the other
sentinel in all other cases. What the tool prints cannot change that, even if it prints a sentinel
or leaves its last line open. In front of the sentinel stand the lines of the tool or, if nothing
was started, the message that says why.
-/

namespace BuildPanel

/-! ### Sentinels -/

namespace Invocation

theorem sentinel_ne_empty (succeeded : Bool) : sentinel succeeded ≠ "" := by
  cases succeeded <;> decide

theorem sentinel_inj {a b : Bool} (h : sentinel a = sentinel b) : a = b := by
  revert a b
  decide

/-- A text that ends with one sentinel does not end with the other. -/
theorem sentinel_suffix_iff (text : List Char) (a b : Bool) :
    (sentinel a).toList <:+ text ++ (sentinel b).toList ↔ a = b := by
  constructor
  · intro ends
    have its := List.suffix_append text (sentinel b).toList
    cases a <;> cases b
    · rfl
    · exact absurd (List.suffix_of_suffix_length_le ends its (by decide)) (by decide)
    · exact absurd (List.suffix_of_suffix_length_le its ends (by decide)) (by decide)
    · rfl
  · rintro rfl
    exact List.suffix_append _ _

end Invocation

namespace Output

theorem ne_empty_of_mem_wholeBody {output : List UInt8} {status : ExitStatus} {chunk : String}
    (h : chunk ∈ wholeBody output status) : chunk ≠ "" := by
  rcases List.mem_append.1 h with line | last
  · obtain ⟨l, inLines, rfl⟩ := List.mem_map.1 line
    exact decodeLine_ne_empty ((cutsInto_lines output).piece inLines).1
  · rw [List.mem_singleton.1 last]
    exact Invocation.sentinel_ne_empty _

end Output

namespace Panel

open Http

variable {p : Panel} {fs : FileSystem} {r : Request} {chunks : List String}

theorem ne_empty_of_mem_failedChunks {message chunk : String} (h : chunk ∈ failedChunks message) :
    chunk ≠ "" := by
  simp only [failedChunks, List.mem_cons, List.not_mem_nil, or_false] at h
  rcases h with rfl | rfl
  · intro empty
    have none_ := congrArg String.toList empty
    simp at none_
  · exact Invocation.sentinel_ne_empty _

/-- The build directory can be made, the build tool can be started in it, and it exits with
code 0. -/
def Builds (p : Panel) (fs : FileSystem) : Prop :=
  ∃ made course, BuildDirectory.ensure fs p.configuration.build = (made, .ok ()) ∧
    p.start made Invocation.build = .ok course ∧ (course.run made).2.2 = .code 0

/-- The three ways that a build can take, with all chunks that are sent in each. -/
inductive BuildCourse (p : Panel) (fs : FileSystem) : List String → Prop where
  | unmade {made : FileSystem} {e : BuildDirectory.DirectoryError}
      (fails : BuildDirectory.ensure fs p.configuration.build = (made, .error e)) :
      BuildCourse p fs (failedChunks e.message)
  | unstarted {made : FileSystem} {fault : SpawnFault}
      (makes : BuildDirectory.ensure fs p.configuration.build = (made, .ok ()))
      (fails : p.start made Invocation.build = .error fault) :
      BuildCourse p fs (failedChunks fault.message)
  | ended {made files : FileSystem} {course : Course} {output : List UInt8} {status : ExitStatus}
      (makes : BuildDirectory.ensure fs p.configuration.build = (made, .ok ()))
      (starts : p.start made Invocation.build = .ok course)
      (runs : course.run made = (output, files, status)) :
      BuildCourse p fs (Output.wholeBody output status)

/-- A build takes one of the three ways. -/
theorem exists_buildCourse (p : Panel) (fs : FileSystem) : ∃ chunks, BuildCourse p fs chunks := by
  cases makes : BuildDirectory.ensure fs p.configuration.build with
  | mk made outcome =>
    cases outcome with
    | error e => exact ⟨_, .unmade makes⟩
    | ok =>
      cases starts : p.start made Invocation.build with
      | error fault => exact ⟨_, .unstarted makes starts⟩
      | ok course => exact ⟨_, .ended makes starts rfl⟩

namespace BuildCourse

variable {chunks' : List String}

/-- The chunks of its way are the answer to a client that stays. -/
theorem answer (h : BuildCourse p fs chunks) : (p.build fs none).2 = buildAnswer chunks := by
  cases h with
  | unmade fails => simp only [build, fails, buildFailure, Option.getD_none, List.take_length]
  | unstarted makes fails =>
    simp only [build, makes, run, fails, buildFailure, Option.getD_none, List.take_length]
  | ended makes starts runs =>
    simp only [build, makes, run, starts, runs, buildEnding, Output.Relay.chunks_none]

/-- No build takes two ways. -/
theorem unique (h : BuildCourse p fs chunks) (h' : BuildCourse p fs chunks') :
    chunks = chunks' := by
  have same := h.answer.symm.trans h'.answer
  exact Body.chunks.inj (congrArg Response.body same)

/-! ### Each way ends as it should -/

theorem succeeded_of_builds (h : BuildCourse p fs chunks) {before : List String} {succeeded : Bool}
    (split_ : chunks = before ++ [Invocation.sentinel succeeded]) (builds : p.Builds fs) :
    succeeded = true := by
  obtain ⟨made, course, makes, starts, zero⟩ := builds
  have same := h.unique (.ended makes starts rfl)
  rw [split_, zero] at same
  exact Invocation.sentinel_inj (List.cons.inj (List.append_inj' same rfl).2).1

theorem builds_of_succeeded (h : BuildCourse p fs chunks) :
    ∃ before succeeded, chunks = before ++ [Invocation.sentinel succeeded] ∧
      (succeeded = true → p.Builds fs) := by
  cases h with
  | @unmade made e fails => exact ⟨[e.message ++ "\n"], false, rfl, nofun⟩
  | @unstarted made fault makes fails => exact ⟨[fault.message ++ "\n"], false, rfl, nofun⟩
  | @ended made files course output status makes starts runs =>
    refine ⟨(Output.lines output).map Output.decodeLine, status.succeeded, rfl, ?_⟩
    intro succeeded
    have zero : status = .code 0 := of_decide_eq_true succeeded
    exact ⟨made, course, makes, starts, by rw [runs, zero]⟩

/-- The last chunk of each way is the sentinel for what the build has come to. -/
theorem ends (h : BuildCourse p fs chunks) :
    ∃ before succeeded, chunks = before ++ [Invocation.sentinel succeeded] ∧
      (succeeded = true ↔ p.Builds fs) := by
  obtain ⟨before, succeeded, split_, builds⟩ := h.builds_of_succeeded
  exact ⟨before, succeeded, split_, builds, h.succeeded_of_builds split_⟩

theorem ne_empty (h : BuildCourse p fs chunks) {chunk : String} (sent : chunk ∈ chunks) :
    chunk ≠ "" := by
  cases h with
  | unmade _ => exact ne_empty_of_mem_failedChunks sent
  | unstarted _ _ => exact ne_empty_of_mem_failedChunks sent
  | ended _ _ _ => exact Output.ne_empty_of_mem_wholeBody sent

end BuildCourse

/-! ### The contract -/

/-- What the chunks of a build tell to a client that stays. -/
structure Truthful (p : Panel) (fs : FileSystem) (chunks : List String) : Prop where
  /-- The last chunk is the one sentinel that is appended, and says whether the build has
  succeeded. -/
  ends : ∃ before succeeded, chunks = before ++ [Invocation.sentinel succeeded] ∧
    (succeeded = true ↔ p.Builds fs)
  /-- The text ends with the sentinel of success iff the build has succeeded. -/
  succeeds : (Invocation.sentinel true).toList <:+ chunks.flatMap String.toList ↔ p.Builds fs
  /-- In all other cases it ends with the other sentinel. -/
  fails : (Invocation.sentinel false).toList <:+ chunks.flatMap String.toList ↔ ¬ p.Builds fs
  /-- If the directory cannot be made, the message of the error comes first, with a newline. -/
  unmade : ∀ made e, BuildDirectory.ensure fs p.configuration.build = (made, .error e) →
    chunks = [e.message ++ "\n", Invocation.sentinel false]
  /-- So it does if the tool cannot be started. -/
  unstarted : ∀ made fault, BuildDirectory.ensure fs p.configuration.build = (made, .ok ()) →
    p.start made Invocation.build = .error fault →
    chunks = [fault.message ++ "\n", Invocation.sentinel false]
  /-- If it has been started, its lines come first, in their order. A client that stays to the end
  receives these chunks however the child, the reader, the supervisor, the relay and the client take
  turns. -/
  ended : ∀ made course output files status,
    BuildDirectory.ensure fs p.configuration.build = (made, .ok ()) →
    p.start made Invocation.build = .ok course → course.run made = (output, files, status) →
    chunks = (Output.lines output).map Output.decodeLine ++
      [Invocation.sentinel status.succeeded] ∧
    ∀ ms relay, (Output.Relay.start output status).run ms = some relay →
      relay.attended = true → relay.phase = .finished → relay.body = [] → relay.received = chunks
  nonempty : ∀ chunk ∈ chunks, chunk ≠ ""

theorem BuildCourse.truthful (h : BuildCourse p fs chunks) : Truthful p fs chunks := by
  obtain ⟨before, succeeded, split_, told⟩ := h.ends
  have text : chunks.flatMap String.toList =
      before.flatMap String.toList ++ (Invocation.sentinel succeeded).toList := by
    rw [split_, List.flatMap_append, List.flatMap_singleton]
  constructor
  case ends => exact ⟨before, succeeded, split_, told⟩
  case succeeds =>
    rw [text, Invocation.sentinel_suffix_iff, ← told]
    exact eq_comm
  case fails =>
    rw [text, Invocation.sentinel_suffix_iff, ← told, Bool.not_eq_true]
    exact eq_comm
  case unmade =>
    intro made e fails
    exact h.unique (.unmade fails)
  case unstarted =>
    intro made fault makes fails
    exact h.unique (.unstarted makes fails)
  case ended =>
    intro made course output files status makes starts runs
    have whole := h.unique (.ended makes starts runs)
    refine ⟨whole, ?_⟩
    intro ms relay hrun there finished empty
    have account := Output.Relay.conveys_run (Output.Relay.Conveys.start output status) hrun
    rw [account.received_eq there finished empty, whole]
  case nonempty =>
    intro chunk sent
    exact h.ne_empty sent

/-- A build tells its client the truth about its end, whatever the files, the build tool and what it
prints. -/
theorem truthful_of_build (p : Panel) (fs : FileSystem) (r : Request)
    (asks : endpoint? r = some .build) (stays : r.patience = none) :
    ∃ chunks, (p.respond fs r).2 = .plainText 200 (.chunks chunks) ∧ Truthful p fs chunks := by
  obtain ⟨chunks, h⟩ := exists_buildCourse p fs
  refine ⟨chunks, ?_, h.truthful⟩
  rw [respond_of_endpoint? asks, handle, stays, h.answer, buildAnswer]

/-- A panel whose build tool prints the sentinel of success and then one letter, and fails. -/
def boastingPanel : Panel where
  configuration := { Configuration.forProject (Path.ofString "/") (Path.ofString "/b") with
    program := "/t" }
  machine := ⟨fun _ => some fun _ _ =>
    .ofRun fun fs => (Text.bytes (Invocation.sentinel true ++ "x"), fs, .code 1), []⟩

/-- Files with nothing but that tool. -/
def boastingFiles : FileSystem :=
  ⟨[([Path.ofString "t"], .file [] true)], []⟩

theorem truthful_boasting :
    endpoint? ⟨"POST", "/build?x", none, [], none⟩ = some .build ∧
    ∃ chunks, (boastingPanel.respond boastingFiles ⟨"POST", "/build?x", none, [], none⟩).2 =
      .plainText 200 (.chunks chunks) ∧ Truthful boastingPanel boastingFiles chunks := by
  have asks : endpoint? ⟨"POST", "/build?x", none, [], none⟩ = some .build := by decide +kernel
  exact ⟨asks, truthful_of_build boastingPanel boastingFiles _ asks rfl⟩

end Panel

end BuildPanel
