import BuildPanel.Proofs.Output.Attentive
import BuildPanel.Proofs.Relay.Delivery

/-!
A client that stays and takes every chunk at once. The order in which such a client meets the chunks
leaves nothing undone: whatever move some party can make, one of the moves that are tried can be
made too, and there are tries enough for all of them. So the client takes every chunk of the build.
-/

namespace BuildPanel

namespace Output

namespace Relay

variable {r r' : Relay} {m : Move} {output : List UInt8} {status : ExitStatus}

theorem exists_eager_of_stream {party : Party} (own : party ≠ .consumer)
    (h : r.stream.CanMove party) : ∃ move ∈ eagerMoves none, (r.step (move r)).isSome := by
  obtain ⟨move, tried, its, may⟩ := Stream.exists_eager own h
  refine ⟨fun r => .stream (move r.stream), ?_, ?_⟩
  · exact List.mem_append_right _ (List.mem_map.2 ⟨move, tried, rfl⟩)
  · simpa [Relay.step, its] using may

/-- The moves of an agent other than the client are those of a party of the stream, or the relay's
own. -/
theorem exists_eager {agent : Agent} (own : agent ≠ .client) (h : r.CanMove agent) :
    ∃ move ∈ eagerMoves none, (r.step (move r)).isSome := by
  obtain ⟨m, rfl, may⟩ := h
  cases m with
  | stream m =>
    by_cases its : m.party = .consumer
    · simp [Relay.step, its] at may
    · refine exists_eager_of_stream its ⟨m, rfl, ?_⟩
      simpa [Relay.step, its] using may
  | hear => exact ⟨fun _ => .hear, by simp [eagerMoves], may⟩
  | conclude => exact ⟨fun _ => .conclude, by simp [eagerMoves], may⟩
  | send => exact ⟨fun _ => .send, by simp [eagerMoves], may⟩
  | release => exact ⟨fun _ => .release, by simp [eagerMoves], may⟩
  | take => exact absurd rfl own
  | leave => exact absurd rfl own

theorem exists_eager_of_body (there : r.attended = true) (waiting : r.body ≠ []) :
    ∃ move ∈ eagerMoves none, (r.step (move r)).isSome := by
  refine ⟨fun _ => .take, by simp [eagerMoves], ?_⟩
  cases body : r.body with
  | nil => exact absurd body waiting
  | cons chunk rest => simp [Relay.step, there, body]

/-- Where none of the moves that are tried can be made, the client has been served. -/
theorem Conveys.served_of_still (h : Conveys output status r) (there : r.attended = true)
    (still : ∀ move ∈ eagerMoves none, r.step (move r) = none) :
    r.phase = .finished ∧ r.body = [] := by
  have none_ : ¬ ∃ move ∈ eagerMoves none, (r.step (move r)).isSome := by
    rintro ⟨move, tried, may⟩
    rw [still move tried] at may
    cases may
  have empty : r.body = [] :=
    Classical.byContradiction fun waiting => none_ (exists_eager_of_body there waiting)
  refine ⟨?_, empty⟩
  refine Classical.byContradiction fun open_ => ?_
  rcases h.progress open_ with reader | supervisor | relay | child | ⟨-, full⟩
  · exact none_ (exists_eager (by decide) reader)
  · exact none_ (exists_eager (by decide) supervisor)
  · exact none_ (exists_eager (by decide) relay)
  · exact none_ (exists_eager (by decide) child)
  · rw [empty] at full
    cases full

/-- None of the moves that are tried makes the client go away. -/
theorem attended_of_eager {move : Relay → Move} (tried : move ∈ eagerMoves none)
    (step : Step r (move r) r') : r'.attended = r.attended := by
  have stays : move r ≠ .leave := by
    rcases List.mem_append.1 tried with own | streams
    · simp only [List.mem_cons, List.not_mem_nil, or_false] at own
      rcases own with rfl | rfl | rfl | rfl | rfl <;> nofun
    · obtain ⟨inner, -, rfl⟩ := List.mem_map.1 streams
      nofun
  generalize move r = m at step stays
  cases step with
  | left there => exact absurd rfl stays
  | _ => rfl

/-- The supply of a relay that serves a client does not fall below what is kept for the client and
the stream, and nothing else is left when it comes to that. -/
theorem served_of_supply (heeds : r.stream.listening = true) (there : r.attended = true)
    (spent : r.supply ≤ 2) : r.phase = .finished ∧ r.body = [] := by
  have kept : 0 < r.stream.supply := by simp [Stream.supply, heeds]
  simp only [supply, there, if_true] at spent
  constructor
  · cases phase : r.phase with
    | finished => rfl
    | listening =>
      simp only [phase, Relaying.supply] at spent
      omega
    | sending chunk isLast =>
      have two := supply_afterChunk chunk isLast
      rw [phase] at spent
      omega
  · exact List.length_eq_zero_iff.1 (by omega)

/-- With tries enough for its supply a relay serves a client that stays to the end. -/
theorem Conveys.served_of_follow (h : Conveys output status r) (there : r.attended = true) {n : Nat}
    (enough : r.supply ≤ n + 2) :
    (follow none n r).received = wholeBody output status := by
  induction n generalizing r with
  | zero =>
    obtain ⟨finished, empty⟩ := served_of_supply h.heeds there enough
    exact h.received_eq there finished empty
  | succ n ih =>
    rw [follow]
    split
    · next r' found =>
      obtain ⟨move, tried, moved⟩ := List.exists_of_findSome?_eq_some found
      have step := step_cases moved
      have spent := supply_step step
      exact ih (h.step step) ((attended_of_eager tried step).trans there) (by omega)
    · next found =>
      have still := List.findSome?_eq_none_iff.1 found
      obtain ⟨finished, empty⟩ := h.served_of_still there still
      exact h.received_eq there finished empty

/-- A client that stays takes every chunk of the build. -/
theorem chunks_none (output : List UInt8) (status : ExitStatus) :
    chunks none output status = wholeBody output status := by
  have enough := Nat.le_of_eq (supply_start output status)
  exact (Conveys.start output status).served_of_follow rfl enough

end Relay

end Output

end BuildPanel
