import BuildPanel.Proofs.Panel.Outlook

/-!
The turns that have come so far, and what they match. A request that does not hold the lock goes on
with a turn or without: it is answered, saves its options, or asks for the lock.
-/

namespace BuildPanel

namespace Panel

open Http FileSystem BuildDirectory

namespace World

variable {p : Panel} {base : FileSystem} {requests : List Request} {w w' : World}
  {site : Site base p.configuration.build} {order : List Nat} {i : Nat} {old phase : Phase}

/-- A request has had its turn: it holds the lock, or has been answered and asked for no page. -/
def Turned (requests : List Request) (w : World) (i : Nat) : Prop :=
  w.holder = some i ∨ ∃ r response, requests[i]? = some r ∧ ¬ AsksForPage r ∧
    w.requests[i]? = some (.answered response)

/-- The turns that have come so far match what there is. -/
structure Serial (p : Panel) (site : Site base p.configuration.build) (requests : List Request)
    (order : List Nat) (w : World) : Prop where
  nodup : order.Nodup
  mem : ∀ i, i ∈ order ↔ w.Turned requests i
  same : Matches p site requests order w.files (w.outlook p) (w.owed p)

theorem turn_of_holder {m : Move} (changed : w'.holder ≠ w.holder) :
    w.turn w' m = w'.holder :=
  if_pos changed

theorem turn_of_unanswered (holder : w'.holder = w.holder) (open_ : w'.response? i = none) :
    w.turn w' (.advance i) = none := by
  unfold turn
  rw [if_neg (not_not_intro holder)]
  dsimp only
  rw [open_]
  cases w.requests[i]? with
  | none => rfl
  | some phase => cases phase <;> rfl

theorem turn_of_arrived {r : Request} {response : Response} (holder : w'.holder = w.holder)
    (at_i : w.requests[i]? = some (.arrived r)) (answer : w'.response? i = some response) :
    w.turn w' (.advance i) = if AsksForPage r then none else some i := by
  unfold turn
  rw [if_neg (not_not_intro holder)]
  dsimp only
  rw [at_i, answer]

theorem turn_of_saving {options : OptionSet} {response : Response}
    (holder : w'.holder = w.holder) (at_i : w.requests[i]? = some (.saving options))
    (answer : w'.response? i = some response) : w.turn w' (.advance i) = some i := by
  unfold turn
  rw [if_neg (not_not_intro holder)]
  dsimp only
  rw [at_i, answer]

theorem turn_of_act {j : Nat} (holder : w'.holder = w.holder) : w.turn w' (.act j) = none := by
  unfold turn
  rw [if_neg (not_not_intro holder)]

theorem response?_of_moved
    (moved : ∀ k, w'.requests[k]? = if k = i then some phase else w.requests[k]?) (k : Nat)
    (other : k ≠ i) : w'.response? k = w.response? k := by
  rw [response?, response?, moved, if_neg other]

theorem turned_of_moved
    (moved : ∀ k, w'.requests[k]? = if k = i then some phase else w.requests[k]?)
    (holder : w'.holder = w.holder) (k : Nat) (other : k ≠ i) :
    w'.Turned requests k ↔ w.Turned requests k := by
  rw [Turned, Turned, holder, moved, if_neg other]

/-- A request that is outside the lock's reach and has no answer yet has not had its turn. -/
theorem not_turned (lock : Orderly w) (at_i : w.requests[i]? = some old)
    (outside : old.stage = .outside) (open_ : ∀ response, old ≠ .answered response) :
    ¬ w.Turned requests i := by
  rintro (holds | ⟨r, response, -, -, answered⟩)
  · exact lock.of_holder i holds ((stage_eq at_i).trans outside)
  · rw [at_i] at answered
    exact open_ response (Option.some.inj answered)

namespace Serial

/-- Nobody has a turn. -/
theorem quiet (h : Serial p site requests order w)
    (turned : ∀ k, w'.Turned requests k ↔ w.Turned requests k)
    (same : Matches p site requests order w'.files (w'.outlook p) (w'.owed p)) :
    Serial p site requests (order ++ []) w' := by
  rw [List.append_nil]
  exact ⟨h.nodup, fun k => (h.mem k).trans (turned k).symm, same⟩

/-- A request has its turn. -/
theorem next (h : Serial p site requests order w) (first : ¬ w.Turned requests i)
    (turned : ∀ k, w'.Turned requests k ↔ w.Turned requests k ∨ k = i)
    (same : Matches p site requests (order ++ [i]) w'.files (w'.outlook p) (w'.owed p)) :
    Serial p site requests (order ++ [i]) w' := by
  have absent : i ∉ order := fun member => first ((h.mem i).1 member)
  refine ⟨?_, ?_, same⟩
  · refine List.nodup_append.2 ⟨h.nodup, by simp, ?_⟩
    intro a ha b hb
    obtain rfl := List.mem_singleton.1 hb
    rintro rfl
    exact absent ha
  · intro k
    rw [turned k, List.mem_append, List.mem_singleton, h.mem k]

theorem ne_of_mem (h : Serial p site requests order w) (first : ¬ w.Turned requests i) {k : Nat}
    (member : k ∈ order) : k ≠ i := by
  rintro rfl
  exact first ((h.mem k).1 member)

section Aside

variable (apart : Settings.LiesIn base site.Outside p.configuration.settings)
  (tool : p.Contained site)

include apart tool

/-- A request outside the lock's reach goes on, and nobody notices. -/
theorem aside (h : Serial p site requests order w) (sound : Sound p site requests w)
    (lock : Orderly w) (at_i : w.requests[i]? = some old) (outside : old.stage = .outside)
    (open_ : ∀ response, old ≠ .answered response)
    (moved : ∀ k, w'.requests[k]? = if k = i then some phase else w.requests[k]?)
    (holder : w'.holder = w.holder) (children : w'.children = w.children)
    (evolved : p.Evolved site w'.files) (inside : AgreeOn site.Inside w.files w'.files) :
    ¬ w.Turned requests i ∧ AgreeOn site.Inside (w.outlook p) (w'.outlook p) ∧
      ∀ k ∈ order, w'.owed p k = w.owed p k := by
  have first : ¬ w.Turned requests i := not_turned lock at_i outside open_
  have phases : ∀ k, w.holder = some k → w'.requests[k]? = w.requests[k]? := by
    intro k holds
    rw [moved, if_neg]
    rintro rfl
    exact first (.inl holds)
  obtain ⟨inside', owed⟩ :=
    outlook_congr apart tool sound lock holder phases children evolved inside
  refine ⟨first, inside', fun k member => owed k ?_⟩
  exact response?_of_moved moved k (h.ne_of_mem first member)

/-- A request goes on outside the lock's reach without having its turn. -/
theorem goOn (h : Serial p site requests order w) (sound : Sound p site requests w)
    (lock : Orderly w) (at_i : w.requests[i]? = some old) (outside : old.stage = .outside)
    (open_ : ∀ response, old ≠ .answered response)
    (moved : ∀ k, w'.requests[k]? = if k = i then some phase else w.requests[k]?)
    (holder : w'.holder = w.holder) (children : w'.children = w.children)
    (evolved : p.Evolved site w'.files) (inside : AgreeOn site.Inside w.files w'.files)
    (still : ∀ response, phase ≠ .answered response)
    (same : Matches p site requests order w'.files (w.outlook p) (w.owed p)) :
    Serial p site requests (order ++ (w.turn w' (.advance i)).toList) w' := by
  obtain ⟨first, inside', owed⟩ :=
    h.aside apart tool sound lock at_i outside open_ moved holder children evolved inside
  have unanswered : w'.response? i = none := by
    rw [response?, moved, if_pos rfl]
    cases phase with
    | answered response => exact absurd rfl (still response)
    | _ => rfl
  rw [turn_of_unanswered holder unanswered]
  refine h.quiet ?_ (same.congr apart evolved inside' owed (AgreeOn.refl _ _))
  intro k
  by_cases itself : k = i
  · subst itself
    refine iff_of_false ?_ first
    rintro (holds | ⟨r, response, -, -, answered⟩)
    · exact first (.inl (holder.symm.trans holds))
    · rw [moved, if_pos rfl] at answered
      exact still response (Option.some.inj answered)
  · exact turned_of_moved moved holder k itself

/-- A request has its turn outside the lock's reach. -/
theorem tell (h : Serial p site requests order w) (sound : Sound p site requests w)
    (lock : Orderly w) (at_i : w.requests[i]? = some old) (outside : old.stage = .outside)
    (open_ : ∀ response, old ≠ .answered response) {r : Request} {response : Response}
    (moved : ∀ k, w'.requests[k]? = if k = i then some (.answered response) else w.requests[k]?)
    (holder : w'.holder = w.holder) (children : w'.children = w.children)
    (evolved : p.Evolved site w'.files) (inside : AgreeOn site.Inside w.files w'.files)
    (given : requests[i]? = some r) (other : ¬ AsksForPage r)
    (turn : w.turn w' (.advance i) = some i)
    (same : ∀ {outlook' : FileSystem} {owed' : Nat → Option Response},
      AgreeOn site.Inside (w.outlook p) outlook' → (∀ k ∈ order, owed' k = w.owed p k) →
        owed' i = some response → Matches p site requests (order ++ [i]) w'.files outlook' owed') :
    Serial p site requests (order ++ (w.turn w' (.advance i)).toList) w' := by
  obtain ⟨first, inside', owed⟩ :=
    h.aside apart tool sound lock at_i outside open_ moved holder children evolved inside
  have answer : w'.response? i = some response := by
    rw [response?, moved, if_pos rfl]
  have free : w'.holder ≠ some i := fun holds => first (.inl (holder.symm.trans holds))
  rw [turn]
  refine h.next first ?_ (same inside' owed ((owed_of_other free).trans answer))
  intro k
  by_cases itself : k = i
  · subst itself
    refine iff_of_true (.inr ⟨r, response, given, other, ?_⟩) (.inr rfl)
    rw [moved, if_pos rfl]
  · rw [turned_of_moved moved holder k itself]
    exact (or_iff_left itself).symm

/-- The page is answered, and at most makes the directory for the holder of the lock. -/
theorem page (h : Serial p site requests order w) (sound : Sound p site requests w)
    (lock : Orderly w) {r : Request} {response : Response}
    (at_i : w.requests[i]? = some (.arrived r)) (given : requests[i]? = some r)
    (page : AsksForPage r)
    (moved : ∀ k, w'.requests[k]? = if k = i then some (.answered response) else w.requests[k]?)
    (holder : w'.holder = w.holder) (children : w'.children = w.children)
    (files : w'.files = w.files ∨ w'.files = (p.remake w.files).1) :
    Serial p site requests (order ++ (w.turn w' (.advance i)).toList) w' := by
  have first : ¬ w.Turned requests i := not_turned lock at_i rfl (by simp)
  have answer : w'.response? i = some response := by
    rw [response?, moved, if_pos rfl]
  have turned : ∀ k, w'.Turned requests k ↔ w.Turned requests k := by
    intro k
    by_cases itself : k = i
    · subst itself
      refine iff_of_false ?_ first
      rintro (holds | ⟨r', _, given', other, -⟩)
      · exact first (.inl (holder.symm.trans holds))
      · rw [given] at given'
        cases given'
        exact other page
    · exact turned_of_moved moved holder k itself
  have answers : ∀ k ∈ order, w'.response? k = w.response? k := fun k member =>
    response?_of_moved moved k (h.ne_of_mem first member)
  have phases : ∀ k, w.holder = some k → w'.requests[k]? = w.requests[k]? := by
    intro k holds
    rw [moved, if_neg]
    rintro rfl
    exact first (.inl holds)
  rw [turn_of_arrived holder at_i answer, if_pos page]
  refine h.quiet turned ?_
  have lands := remake_lands apart sound.evolved sound.present_or_gone
  by_cases untouched : w'.files = w.files
  · have evolved := sound.evolved
    rw [← untouched] at evolved
    obtain ⟨inside, owed⟩ := outlook_congr apart tool sound lock holder phases children evolved
      (by rw [untouched]; exact AgreeOn.refl _ _)
    have same := h.same
    rw [← untouched] at same
    exact same.congr apart evolved inside (fun k member => owed k (answers k member))
      (AgreeOn.refl _ _)
  · have made := files.resolve_left untouched
    obtain ⟨-, k, remaking⟩ : site.Gone w.files ∧
        ∃ k : Nat, w.requests[k]? = some .remaking := by
      refine sound.standing.resolve_left fun present => untouched ?_
      rw [made, remake_of_ready apart ⟨sound.evolved, present⟩]
    -- The directory is there before its holder has made it anew, which makes no difference.
    have holds := lock.of_working k (stage_eq remaking)
    have conclusion : w'.conclusion p = w.conclusion p := by
      rw [conclusion_of_holder holds remaking, conclusion_of_holder (holder.trans holds)
        ((phases k holds).trans remaking)]
      simp only [rest]
      rw [made, remake_again apart sound.evolved sound.present_or_gone]
    have inside : w'.outlook p = w.outlook p := by
      rw [outlook_of_conclusion (conclusion_of_holder holds remaking),
        outlook_of_conclusion (conclusion.trans (conclusion_of_holder holds remaking))]
    refine h.same.congr apart sound.evolved ?_ ?_ ?_
    · rw [inside]
      exact AgreeOn.refl _ _
    · intro l member
      exact owed_congr holder (congrArg _ conclusion) (answers l member)
    · rw [made]
      exact lands.outside

/-- A request arrives. -/
theorem accepted (h : Serial p site requests order w) (sound : Sound p site requests w)
    (lock : Orderly w) {r : Request} (at_i : w.requests[i]? = some (.arrived r))
    (evolved : p.Evolved site (accept p w.files r).1)
    (moved : w' = { w with files := (accept p w.files r).1 }.setPhase i (accept p w.files r).2) :
    Serial p site requests (order ++ (w.turn w' (.advance i)).toList) w' := by
  obtain ⟨r', given, ⟨⟩⟩ := sound.fits i _ at_i
  subst moved
  have phases := setPhase_requests (w := { w with files := (accept p w.files r).1 }) at_i
    (accept p w.files r).2
  cases asks : action? r with
  | some action =>
    have result := @accept_of_action p w.files r action asks
    rw [result] at phases evolved ⊢
    refine h.goOn apart tool sound lock at_i rfl (by simp) phases rfl rfl evolved
      (AgreeOn.refl _ _) ?_ h.same
    cases action <;> simp [Action.first]
  | none =>
    have result := @accept_of_none p w.files r asks
    rw [result] at phases evolved ⊢
    by_cases page : AsksForPage r
    · exact h.page apart tool sound lock at_i given page phases rfl rfl (respond_page page)
    · have answer : ({ w with files := (p.respond w.files r).1 }.setPhase i
          (.answered (p.respond w.files r).2)).response? i = some (p.respond w.files r).2 := by
        rw [response?, phases, if_pos rfl]
      have turn := (turn_of_arrived (by rfl) at_i answer).trans (if_neg page)
      rcases respond_of_none asks page with ⟨options, responds⟩ | ⟨response, responds⟩
      · have files : (p.respond w.files r).1 =
            (Settings.save w.files p.configuration.settings options).1 := by
          rw [responds]
          rfl
        refine h.tell apart tool sound lock at_i rfl (by simp) phases rfl rfl evolved ?_ given page
          turn ?_
        · change AgreeOn site.Inside w.files (p.respond w.files r).1
          rw [files]
          exact sound.evolved.save_inside apart options
        · intro outlook' owed' inside same answer
          change Matches p site requests _ (p.respond w.files r).1 _ _
          rw [files]
          refine h.same.turn_save apart options given ?_ inside same answer
          intro fs outcome
          rw [responds, responds]
          unfold Panel.save
          dsimp only
          rw [outcome]
      · have files : (p.respond w.files r).1 = w.files := by
          rw [responds]
        refine h.tell apart tool sound lock at_i rfl (by simp) phases rfl rfl evolved ?_ given page
          turn ?_
        · change AgreeOn site.Inside w.files (p.respond w.files r).1
          rw [files]
          exact AgreeOn.refl _ _
        · intro outlook' owed' inside same answer
          change Matches p site requests _ (p.respond w.files r).1 _ _
          rw [files]
          refine h.same.turn_told given responds inside same (answer.trans ?_)
          rw [responds]

/-- Options could not be saved, so that applying them ends here. -/
theorem unsaved (h : Serial p site requests order w) (sound : Sound p site requests w)
    (lock : Orderly w) {options : OptionSet} {files : FileSystem} {fault : Settings.AccessFault}
    (at_i : w.requests[i]? = some (.saving options))
    (outcome : Settings.save w.files p.configuration.settings options = (files, .error fault))
    (moved : w' = { w with files }.setPhase i (.answered (applyFailure (saveFailure fault)))) :
    Serial p site requests (order ++ (w.turn w' (.advance i)).toList) w' := by
  obtain ⟨r, given, fits⟩ := sound.fits i _ at_i
  cases fits with
  | saving asks =>
    have reached : ¬ AsksForPage r := fun page => by
      cases (action?_of_page page).symm.trans asks
    subst moved
    have phases := setPhase_requests (w := { w with files }) at_i
      (.answered (applyFailure (saveFailure fault)))
    have evolved := sound.evolved.save apart options
    have inside := sound.evolved.save_inside apart options
    rw [outcome] at evolved inside
    refine h.tell apart tool sound lock at_i rfl (by simp) phases rfl rfl evolved inside given
      reached (turn_of_saving rfl at_i (by rw [response?, phases, if_pos rfl])) ?_
    intro outlook' owed' inside' same answer
    have turn := h.same.turn_save apart options given (?_ : ∀ fs, _ → _) inside' same
      answer
    · rw [outcome] at turn
      exact turn
    · intro fs failed
      rw [outcome] at failed
      rw [respond_apply asks]
      generalize Settings.save fs p.configuration.settings options = s at failed ⊢
      obtain ⟨files', outcome'⟩ := s
      cases failed
      rfl

/-- Options are saved for an action that is to ask for the lock. -/
theorem saved (h : Serial p site requests order w) (sound : Sound p site requests w)
    (lock : Orderly w) {options : OptionSet} {files : FileSystem}
    (at_i : w.requests[i]? = some (.saving options))
    (outcome : Settings.save w.files p.configuration.settings options = (files, .ok ()))
    (moved : w' = { w with files }.setPhase i (.asking (.apply options))) :
    Serial p site requests (order ++ (w.turn w' (.advance i)).toList) w' := by
  subst moved
  have phases := setPhase_requests (w := { w with files }) at_i (.asking (.apply options))
  have evolved := sound.evolved.save apart options
  have inside := sound.evolved.save_inside apart options
  have same := h.same.save apart options (by rw [outcome])
  rw [outcome] at evolved inside same
  exact h.goOn apart tool sound lock at_i rfl (by simp) phases rfl rfl evolved inside (by simp) same

end Aside

end Serial

end World

end Panel

end BuildPanel
