import BuildPanel.Output.Stream

/-!
Runs of a stream. A run is a list of moves of the four parties, made one after another; every
interleaving of them is one. `Stream.Step` says once what a move can do.
-/

namespace BuildPanel

namespace Output

namespace Stream

/-- The stream after some moves, if all of them can be made. -/
def run (s : Stream) : List Move → Option Stream
  | [] => some s
  | m :: ms => (s.step m).bind fun s' => s'.run ms

/-- What a move can do. -/
inductive Step (s : Stream) : Move → Stream → Prop where
  | wrote {n : Nat} (holds : s.closed = false) (some_ : 0 < n) (there : n ≤ s.unwritten.length) :
      Step s (.write n)
        { s with unwritten := s.unwritten.drop n, pipe := s.pipe ++ s.unwritten.take n }
  | closed (holds : s.closed = false) (all : s.unwritten = []) :
      Step s .close { s with closed := true }
  | exited (closed : s.closed = true) (lives : s.exited = false) :
      Step s .exit { s with exited := true }
  | fetched {n : Nat} (idle : s.offered = none) (some_ : 0 < n) (there : n ≤ s.pipe.length) :
      Step s (.fetch n) { s with pipe := s.pipe.drop n, held := s.held ++ s.pipe.take n }
  | cut (idle : s.offered = none)
      (line : newline ∈ s.held ∨ s.closed = true ∧ s.pipe = [] ∧ s.held ≠ []) :
      Step s .cut { s with
        held := (Output.cut s.held).2
        offered := if s.discarding then none else decodeLine (Output.cut s.held).1 }
  | discarded {line : String} (offers : s.offered = some line) (gone : s.listening = false) :
      Step s .deliver { s with offered := none, discarding := true }
  | delivered {line : String} (offers : s.offered = some line) (listens : s.listening = true)
      (room : s.queue.length < queueLimit) :
      Step s .deliver { s with offered := none, queue := s.queue ++ [.line line] }
  | finished (open_ : s.readAll = false) (closed : s.closed = true) (read : s.pipe = [])
      (cut : s.held = []) (idle : s.offered = none) :
      Step s .finish { s with readAll := true }
  | reaped (waits : s.supervision = .waiting) (read : s.readAll = true) (exited : s.exited = true) :
      Step s .reap { s with supervision := .announcing }
  | unheard (announces : s.supervision = .announcing) (gone : s.listening = false) :
      Step s .announce { s with supervision := .finished }
  | announced (announces : s.supervision = .announcing) (listens : s.listening = true)
      (room : s.queue.length < queueLimit) :
      Step s .announce
        { s with supervision := .finished, queue := s.queue ++ [.exited s.status] }
  | received {e : Event} {rest : List Event} (listens : s.listening = true)
      (waiting : s.queue = e :: rest) :
      Step s .receive { s with queue := rest, received := s.received ++ [e] }
  | left (listens : s.listening = true) :
      Step s .leave { s with listening := false, queue := [] }

variable {s s' : Stream} {m : Move}

theorem step_cases (h : s.step m = some s') : Step s m s' := by
  cases m with
  | write n =>
    simp only [step] at h
    split at h
    · next may =>
      cases h
      simp only [Bool.and_eq_true, Bool.not_eq_true', decide_eq_true_eq] at may
      exact .wrote may.1.1.1 may.1.1.2 may.1.2
    · cases h
  | close =>
    simp only [step] at h
    split at h
    · next may =>
      cases h
      simp only [Bool.and_eq_true, Bool.not_eq_true', List.isEmpty_iff] at may
      exact .closed may.1 may.2
    · cases h
  | exit =>
    simp only [step] at h
    split at h
    · next may =>
      cases h
      simp only [Bool.and_eq_true, Bool.not_eq_true'] at may
      exact .exited may.1 may.2
    · cases h
  | fetch n =>
    simp only [step] at h
    split at h
    · next may =>
      cases h
      simp only [Bool.and_eq_true, Option.isNone_iff_eq_none, decide_eq_true_eq] at may
      exact .fetched may.1.1.1 may.1.2 may.2
    · cases h
  | cut =>
    simp only [step] at h
    split at h
    · next may =>
      cases h
      simp only [hasLine, Bool.and_eq_true, Option.isNone_iff_eq_none, Bool.or_eq_true,
        List.contains_eq_mem, decide_eq_true_eq, List.isEmpty_iff, Bool.not_eq_true',
        List.isEmpty_eq_false_iff, and_assoc] at may
      exact .cut may.1 may.2
    · cases h
  | deliver =>
    simp only [step] at h
    split at h
    · cases h
    · next line offers =>
      split at h
      · next gone =>
        cases h
        exact .discarded offers (by simpa using gone)
      · next listens =>
        split at h
        · next room =>
          cases h
          exact .delivered offers (by simpa using listens) (by simpa [hasRoom] using room)
        · cases h
  | finish =>
    simp only [step] at h
    split at h
    · next may =>
      cases h
      simp only [Bool.and_eq_true, Bool.not_eq_true', List.isEmpty_iff,
        Option.isNone_iff_eq_none] at may
      exact .finished may.1.1.1.1 may.1.1.1.2 may.1.1.2 may.1.2 may.2
    · cases h
  | reap =>
    simp only [step] at h
    split at h
    · next may =>
      cases h
      simp only [Bool.and_eq_true, decide_eq_true_eq] at may
      exact .reaped may.1.1 may.1.2 may.2
    · cases h
  | announce =>
    simp only [step] at h
    split at h
    · cases h
    · next announces =>
      split at h
      · next gone =>
        cases h
        exact .unheard (by simpa using announces) (by simpa using gone)
      · next listens =>
        split at h
        · next room =>
          cases h
          exact .announced (by simpa using announces) (by simpa using listens)
            (by simpa [hasRoom] using room)
        · cases h
  | receive =>
    simp only [step] at h
    split at h
    · next listens =>
      split at h
      · cases h
      · next e rest waiting =>
        cases h
        exact .received listens waiting
    · cases h
  | leave =>
    simp only [step] at h
    split at h
    · next listens =>
      cases h
      exact .left listens
    · cases h

/-- A run begins with a move and goes on from there. -/
theorem run_cases {ms : List Move} (hrun : s.run (m :: ms) = some s') :
    ∃ between, Step s m between ∧ between.run ms = some s' := by
  obtain ⟨between, hstep, hrest⟩ := Option.bind_eq_some_iff.1 hrun
  exact ⟨between, step_cases hstep, hrest⟩

end Stream

end Output

end BuildPanel
