import Mathlib.Tactic.SplitIfs
import BuildPanel.Page

/-!
The page read back. Each checkbox of the page carries the name and the description of its option as
attributes, and whether it is checked. Cutting them out of the text one checkbox after another, and
putting characters for entities, gives the options of the page again. What is inserted cannot be
taken for markup, since it holds no angle bracket and no quote.
-/

namespace BuildPanel

namespace Html

theorem unescape_cons {c : Char} (plain : c ≠ '&') (s : List Char) :
    unescape (c :: s) = c :: unescape s := by
  rw [unescape]
  all_goals
    intros
    simp_all

/-- What has been escaped stands for itself. -/
theorem unescape_escape (text : List Char) : unescape (escape text) = text := by
  induction text with
  | nil => rfl
  | cons c text ih =>
    have step : escape (c :: text) = escapeChar c ++ escape text := List.flatMap_cons
    rw [step]
    unfold escapeChar
    split
    · exact congrArg _ ih
    · exact congrArg _ ih
    · exact congrArg _ ih
    · exact congrArg _ ih
    · exact congrArg _ ih
    · next ampersand _ _ _ _ =>
      rw [List.singleton_append, unescape_cons ampersand, ih]

/-- A character of markup, but for that which begins an entity. -/
def IsMarkup (c : Char) : Prop :=
  c = '<' ∨ c = '>' ∨ c = '"' ∨ c = '\''

instance : DecidablePred IsMarkup := fun c =>
  inferInstanceAs (Decidable (c = '<' ∨ c = '>' ∨ c = '"' ∨ c = '\''))

theorem not_isMarkup_of_mem_escapeChar (d : Char) : ∀ c ∈ escapeChar d, ¬ IsMarkup c := by
  -- Only the characters of the entity are looked at, not all that there are.
  have plain : ∀ {s : List Char}, s.all (fun c => !decide (IsMarkup c)) = true →
      ∀ c ∈ s, ¬ IsMarkup c := by
    intro s all c here
    simpa using List.all_eq_true.1 all c here
  unfold escapeChar
  split
  · exact plain (by decide)
  · exact plain (by decide)
  · exact plain (by decide)
  · exact plain (by decide)
  · exact plain (by decide)
  · next less greater quote apostrophe =>
    intro c here
    obtain rfl := List.mem_singleton.1 here
    rintro (rfl | rfl | rfl | rfl)
    · exact less rfl
    · exact greater rfl
    · exact quote rfl
    · exact apostrophe rfl

/-- No character of markup stands in what has been escaped. -/
theorem not_isMarkup_of_mem_escape {c : Char} {text : List Char} (h : c ∈ escape text) :
    ¬ IsMarkup c := by
  obtain ⟨d, -, h⟩ := List.mem_flatMap.1 h
  exact not_isMarkup_of_mem_escapeChar d c h

theorem notMem_escape {c : Char} (h : IsMarkup c) (text : List Char) : c ∉ escape text :=
  fun there => not_isMarkup_of_mem_escape there h

/-! ### Marks -/

/-- The text behind the first place of a mark. -/
def after? (mark : List Char) : List Char → Option (List Char)
  | [] => none
  | c :: s => if mark <+: c :: s then some ((c :: s).drop mark.length) else after? mark s

variable {mark p q : List Char}

theorem after?_here (some_ : mark ≠ []) (s : List Char) : after? mark (mark ++ s) = some s := by
  obtain ⟨c, more, rfl⟩ := List.exists_cons_of_ne_nil some_
  rw [List.cons_append, after?, ← List.cons_append, if_pos (List.prefix_append _ s),
    List.drop_left]

theorem length_of_after? {s rest : List Char} (h : after? mark s = some rest) :
    rest.length + mark.length ≤ s.length := by
  induction s with
  | nil => cases h
  | cons c s ih =>
    unfold after? at h
    split_ifs at h with here
    · cases h
      have long := here.length_le
      rw [List.length_drop]
      omega
    · have shorter := ih h
      rw [List.length_cons]
      omega

/-- A mark begins nowhere in a text, whatever follows the text. -/
def Quiet (mark p : List Char) : Prop :=
  ∀ s, after? mark (p ++ s) = after? mark s

theorem Quiet.append (hp : Quiet mark p) (hq : Quiet mark q) : Quiet mark (p ++ q) := by
  intro s
  rw [List.append_assoc, hp, hq]

theorem quiet_of_not_mem {c : Char} (h : c ∉ p) : Quiet (c :: mark) p := by
  intro s
  induction p with
  | nil => rfl
  | cons d p ih =>
    rw [List.mem_cons, not_or] at h
    obtain ⟨other, others⟩ := h
    have here : ¬ c :: mark <+: d :: (p ++ s) := fun h => other (List.cons_prefix_cons.1 h).1
    rw [List.cons_append, after?, if_neg here, ih others]

theorem Quiet.after?_eq_none (h : Quiet mark p) : after? mark p = none := by
  have whole := h []
  rwa [List.append_nil] at whole

/-- Whether a mark begins nowhere in a text, found by looking at every place. -/
def clear (mark : List Char) : List Char → Bool
  | [] => true
  | c :: p => !(mark.isPrefixOf (c :: p) || (c :: p).isPrefixOf mark) && clear mark p

theorem quiet_of_clear (h : clear mark p = true) : Quiet mark p := by
  intro s
  induction p with
  | nil => rfl
  | cons c p ih =>
    simp only [clear, Bool.and_eq_true, Bool.not_eq_true', Bool.or_eq_false_iff] at h
    have here : ¬ mark <+: c :: p ++ s := by
      intro begins
      rcases List.prefix_or_prefix_of_prefix begins (List.prefix_append (c :: p) s) with h' | h'
      · simp [List.isPrefixOf_iff_prefix.2 h'] at h
      · simp [List.isPrefixOf_iff_prefix.2 h'] at h
    rw [List.cons_append] at here ⊢
    rw [after?, if_neg here, ih h.2]

/-- The same of a text that is given in quotes. -/
theorem quiet_markup {s : String} (h : s = String.ofList p) (h' : clear mark p = true) :
    Quiet mark s.toList := by
  rw [h, String.toList_ofList]
  exact quiet_of_clear h'

theorem quiet_escape {c : Char} (h : IsMarkup c) (text : List Char) :
    Quiet (c :: mark) (escape text) :=
  quiet_of_not_mem (notMem_escape h text)

end Html

namespace Page

open Html

/-! ### Checkboxes -/

/-- What stands up to the next place of a character, and the text from there on. -/
def upTo (c : Char) (s : List Char) : List Char × List Char :=
  (s.takeWhile (· ≠ c), s.dropWhile (· ≠ c))

theorem upTo_append {c : Char} {value : List Char} (free : c ∉ value) (rest : List Char) :
    upTo c (value ++ c :: rest) = (value, c :: rest) := by
  have inside : ∀ d ∈ value, decide (d ≠ c) = true := by
    intro d present
    exact decide_eq_true fun same => free (same ▸ present)
  unfold upTo
  rw [List.takeWhile_append_of_pos inside, List.dropWhile_append_of_pos inside]
  simp

/-- What a checkbox begins with. -/
def inputMark : List Char :=
  ['<', 'i', 'n', 'p', 'u', 't']

/-- What stands in front of the name in a checkbox. -/
def nameMark : List Char :=
  "data-name=\"".toList

@[inherit_doc nameMark]
def descriptionMark : List Char :=
  "data-description=\"".toList

/-- The value behind the next place of a mark, up to a quote, and the text from the quote on. -/
def attribute? (mark s : List Char) : Option (List Char × List Char) :=
  (after? mark s).map (upTo '"')

/-- The option of the next checkbox: the values of two attributes with characters for entities, and
whether it is checked. -/
def input? (s : List Char) : Option ((String × OptionEntry) × List Char) := do
  let s ← after? inputMark s
  let (name, s) ← attribute? nameMark s
  let (description, s) ← attribute? descriptionMark s
  let (flags, s) := upTo '>' s
  return ((String.ofList (unescape name), ⟨String.ofList (unescape description),
    (after? "checked".toList flags).isSome⟩), s)

theorem length_of_attribute? {mark s value rest : List Char}
    (h : attribute? mark s = some (value, rest)) : rest.length ≤ s.length := by
  obtain ⟨t, found, same⟩ := Option.map_eq_some_iff.1 h
  cases same
  have less := length_of_after? found
  have part := (List.dropWhile_sublist (l := t) (· ≠ '"')).length_le
  omega

theorem length_of_input? {s rest : List Char} {m : String × OptionEntry}
    (h : input? s = some (m, rest)) : rest.length < s.length := by
  simp only [input?, Option.bind_eq_bind, Option.bind_eq_some_iff, Option.pure_def,
    Option.some.injEq, Prod.mk.injEq, Prod.exists] at h
  obtain ⟨s₁, found, name, s₂, named, description, s₃, described, -, rfl⟩ := h
  have less := length_of_after? found
  have mark : inputMark.length = 6 := rfl
  have less₂ := length_of_attribute? named
  have less₃ := length_of_attribute? described
  have part := (List.dropWhile_sublist (l := s₃) (· ≠ '>')).length_le
  exact Nat.lt_of_le_of_lt part (by omega)

theorem input?_eq_some {s s₁ s₂ s₃ name description : List Char}
    (found : after? inputMark s = some s₁) (named : attribute? nameMark s₁ = some (name, s₂))
    (described : attribute? descriptionMark s₂ = some (description, s₃)) :
    input? s = some ((String.ofList (unescape name), ⟨String.ofList (unescape description),
      (after? "checked".toList (upTo '>' s₃).1).isSome⟩), (upTo '>' s₃).2) := by
  simp [input?, found, named, described]

/-- The options of a page, as its checkboxes show them one after another. -/
def inputs (s : List Char) : List (String × OptionEntry) :=
  match _h : input? s with
  | none => []
  | some (m, rest) => m :: inputs rest
termination_by s.length
decreasing_by exact length_of_input? _h

theorem inputs_of_none {s : List Char} (h : input? s = none) : inputs s = [] := by
  rw [inputs]
  split
  · rfl
  · next found => rw [h] at found; cases found

theorem inputs_of_some {s rest : List Char} {m : String × OptionEntry}
    (h : input? s = some (m, rest)) : inputs s = m :: inputs rest := by
  rw [inputs]
  split
  · next found => rw [h] at found; cases found
  · next found =>
    rw [h] at found
    cases found
    rfl

/-- Only what can still be read counts. -/
theorem inputs_congr {s t : List Char} (h : input? s = input? t) : inputs s = inputs t := by
  rcases found : input? t with _ | ⟨m, rest⟩
  · rw [inputs_of_none found, inputs_of_none (h.trans found)]
  · rw [inputs_of_some found, inputs_of_some (h.trans found)]

/-- A text in which no checkbox begins is passed over. -/
theorem inputs_quiet {p : List Char} (quiet : Quiet inputMark p) (s : List Char) :
    inputs (p ++ s) = inputs s := by
  refine inputs_congr ?_
  unfold input?
  rw [quiet]

/-! ### What the page shows -/

theorem attribute?_written {mark p : List Char} (quiet : Quiet mark p) (some_ : mark ≠ [])
    (text rest : List Char) :
    attribute? mark (p ++ (mark ++ (escape text ++ '"' :: rest))) =
      some (escape text, '"' :: rest) := by
  have free : '"' ∉ escape text := notMem_escape (by decide) text
  unfold attribute?
  rw [quiet, after?_here some_, Option.map_some, upTo_append free]

/-- What stands in front of the checkbox of an option, in its row. -/
def beforeInput (m : String × OptionEntry) : List Char :=
  "<tr><td><code>".toList ++ (escape m.1.toList ++ ("</code></td><td>".toList ++
    (escape m.2.description.toList ++ "</td><td>".toList)))

/-- What stands in a checkbox in front of the attribute with the name. -/
def beforeName : List Char :=
  " type=\"checkbox\" class=\"cmake-option\" ".toList

/-- What stands in a checkbox behind the description, up to its end. -/
def checkedFlag (value : Bool) : List Char :=
  (if value then " checked" else "").toList

theorem opening_eq :
    "</td><td><input type=\"checkbox\" class=\"cmake-option\" data-name=\"".toList =
      "</td><td>".toList ++ (inputMark ++ (beforeName ++ nameMark)) := by
  unfold beforeName inputMark nameMark
  rw [String.toList_ofList, String.toList_ofList, String.toList_ofList, String.toList_ofList]
  rfl

theorem parting_eq : "\" data-description=\"".toList = '"' :: ' ' :: descriptionMark := by
  unfold descriptionMark
  rw [String.toList_ofList, String.toList_ofList]

theorem closing_eq : "></td></tr>\n".toList = '>' :: "</td></tr>\n".toList := by
  rw [String.toList_ofList, String.toList_ofList]

/-- The row of an option, cut where it is read. -/
theorem write_row (m : String × OptionEntry) (rest : List Char) :
    (row m.1 m.2).flatMap Piece.write ++ rest =
      beforeInput m ++ (inputMark ++ (beforeName ++ (nameMark ++ (escape m.1.toList ++
        '"' :: ' ' :: (descriptionMark ++ (escape m.2.description.toList ++
          '"' :: (checkedFlag m.2.value ++ '>' :: ("</td></tr>\n".toList ++ rest)))))))) := by
  have quote : "\"".toList = ['"'] := by rw [String.toList_ofList]
  simp only [row, List.flatMap_cons, List.flatMap_nil, Piece.write]
  rw [opening_eq, parting_eq, closing_eq, quote]
  unfold beforeInput checkedFlag
  simp only [List.append_assoc, List.cons_append, List.nil_append, List.append_nil]

theorem quiet_beforeInput (m : String × OptionEntry) : Quiet inputMark (beforeInput m) :=
  (quiet_markup rfl (by decide)).append <|
    (quiet_escape (.inl rfl) m.1.toList).append <|
    (quiet_markup rfl (by decide)).append <|
    (quiet_escape (.inl rfl) m.2.description.toList).append <|
    quiet_markup rfl (by decide)

/-- The row of an option shows this option, whatever stands behind it. -/
theorem input?_row (m : String × OptionEntry) (rest : List Char) :
    input? ((row m.1 m.2).flatMap Piece.write ++ rest) =
      some (m, '>' :: ("</td></tr>\n".toList ++ rest)) := by
  obtain ⟨name, description, value⟩ := m
  have inside : Quiet nameMark beforeName := quiet_markup rfl (by decide)
  have between : Quiet descriptionMark ['"', ' '] := quiet_of_clear (by decide)
  have named := attribute?_written inside (by decide) name.toList
  have described (t : List Char) : attribute? descriptionMark ('"' :: ' ' :: (descriptionMark ++
      (escape description.toList ++ '"' :: t))) = some (escape description.toList, '"' :: t) :=
    attribute?_written between (by decide) description.toList t
  have closed : '>' ∉ '"' :: checkedFlag value := by
    cases value <;> decide
  have checked : (after? "checked".toList ('"' :: checkedFlag value)).isSome = value := by
    cases value <;> decide
  have flags := upTo_append closed ("</td></tr>\n".toList ++ rest)
  have found (t : List Char) : after? inputMark (beforeInput (name, ⟨description, value⟩) ++
      (inputMark ++ t)) = some t := by
    rw [quiet_beforeInput, after?_here (by decide)]
  rw [List.cons_append] at flags
  rw [write_row, input?_eq_some (found _) (named _) (described _), flags, checked, unescape_escape,
    unescape_escape, String.ofList_toList, String.ofList_toList]

/-- The rows of options show these options, if nothing behind them is a checkbox. -/
theorem inputs_rows (members : List (String × OptionEntry)) {rest : List Char}
    (last : after? inputMark rest = none) :
    inputs ((members.flatMap fun m => row m.1 m.2).flatMap Piece.write ++ rest) = members := by
  have ending : Quiet inputMark ('>' :: "</td></tr>\n".toList) := by
    rw [← closing_eq]
    exact quiet_markup rfl (by decide)
  induction members with
  | nil =>
    refine inputs_of_none ?_
    simp [input?, last]
  | cons m members ih =>
    rw [List.flatMap_cons, List.flatMap_append, List.append_assoc, inputs_of_some (input?_row m _)]
    rw [← List.cons_append, inputs_quiet ending, ih]

/-! ### The rest of the page -/

theorem toList_lines (ls : List String) :
    (lines ls).toList = ls.flatMap fun l => l.toList ++ ['\n'] := by
  have newline : "\n".toList = ['\n'] := by rw [String.toList_ofList]
  simp only [lines, String.toList_join, List.flatMap_map, String.toList_append, newline]

/-- Lines in which no mark begins, of a mark that lies within one line. -/
theorem quiet_lines {mark : List Char} {ls : List String} (newline : Quiet mark ['\n'])
    (h : ∀ l ∈ ls, Quiet mark l.toList) : Quiet mark (lines ls).toList := by
  rw [toList_lines]
  induction ls with
  | nil => exact fun s => rfl
  | cons l ls ih =>
    obtain ⟨first, others⟩ := List.forall_mem_cons.1 h
    rw [List.flatMap_cons]
    exact (first.append newline).append (ih others)

theorem quiet_head : Quiet inputMark head.toList := by
  refine quiet_lines (quiet_of_clear (by decide)) ?_
  repeat refine List.forall_mem_cons.2 ⟨quiet_markup rfl (by decide), ?_⟩
  exact List.forall_mem_nil _

theorem quiet_script : Quiet inputMark script.toList := by
  refine quiet_lines (quiet_of_clear (by decide)) ?_
  repeat refine List.forall_mem_cons.2 ⟨quiet_markup rfl (by decide), ?_⟩
  exact List.forall_mem_nil _

theorem quiet_actions : Quiet inputMark actions.toList := by
  unfold actions
  simp only [String.toList_append]
  repeat refine Quiet.append ?_ (quiet_markup rfl (by decide))
  exact quiet_markup rfl (by decide)

theorem quiet_directory (status : BuildStatus) :
    Quiet inputMark ((directory status).flatMap Piece.write) := by
  simp only [directory, List.flatMap_cons, List.flatMap_nil, Piece.write]
  refine (quiet_markup rfl (by decide)).append <|
    (quiet_escape (.inl rfl) status.path.toList).append <|
    (quiet_markup rfl (by decide)).append <| Quiet.append ?_ <|
    (quiet_markup rfl (by decide)).append fun s => rfl
  split
  · exact quiet_markup rfl (by decide)
  · exact quiet_markup rfl (by decide)

/-- What stands behind the options. -/
def ending : List Char :=
  actions.toList ++ (script.toList ++ tail.toList)

theorem quiet_ending : Quiet inputMark ending :=
  quiet_actions.append (quiet_script.append (quiet_markup rfl (by decide)))

theorem toList_render (options : OptionSet) (status : BuildStatus) :
    (render options status).toList = head.toList ++ (directory status).flatMap Piece.write ++
      ((table options).flatMap Piece.write ++ ending) := by
  simp only [render, Html.write, String.toList_ofList, pieces, ending, List.cons_append,
    List.flatMap_cons, List.flatMap_append, List.flatMap_nil, Piece.write, List.append_nil,
    List.append_assoc]

theorem inputs_nothing {p : List Char} (quiet : Quiet inputMark p) : inputs p = [] := by
  have all := inputs_quiet quiet []
  rw [List.append_nil] at all
  exact all.trans (inputs_of_none rfl)

/-- The checkboxes of the page are those of the options, in their order. -/
theorem inputs_render (options : OptionSet) (status : BuildStatus) :
    inputs (render options status).toList = options.toList := by
  rw [toList_render, inputs_quiet (quiet_head.append (quiet_directory status))]
  unfold table
  split
  · next none_ =>
    simp only [List.flatMap_cons, List.flatMap_nil, Piece.write, List.append_nil]
    rw [none_]
    exact inputs_nothing ((quiet_markup rfl (by decide)).append quiet_ending)
  · next members _ =>
    simp only [List.cons_append, List.flatMap_cons, List.flatMap_append, List.flatMap_nil,
      Piece.write, List.append_nil, List.append_assoc]
    rw [inputs_quiet (quiet_markup rfl (by decide)), inputs_rows]
    exact Quiet.after?_eq_none ((quiet_markup rfl (by decide)).append quiet_ending)

end Page

end BuildPanel
