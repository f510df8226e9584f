import BuildPanel.Proofs.Page.Inputs

/-!
The markup of the page. Two pages for the same values and the same state of the build directory have
the same characters of markup in the same order, and the same tags but for the names and
descriptions in the attributes of the checkboxes, whatever the texts are that are inserted. And no
ampersand stands in a page but at the beginning of an entity.
-/

namespace BuildPanel

namespace Html

/-! ### Tags -/

/-- The tags of a text that begins inside a tag, of which so much has been read, or outside. -/
def tagsFrom : Option (List Char) → List Char → List (List Char)
  | _, [] => []
  | none, c :: s => tagsFrom (if c = '<' then some [] else none) s
  | some tag, c :: s => if c = '>' then tag :: tagsFrom none s else tagsFrom (some (tag ++ [c])) s

/-- What stands between each angle bracket that opens a tag and the next one that closes it. -/
def tags (s : List Char) : List (List Char) :=
  tagsFrom none s

/-- The tag in which a text ends, as far as it has been read, if it does not end outside. -/
def openTag : Option (List Char) → List Char → Option (List Char)
  | tag?, [] => tag?
  | none, c :: s => openTag (if c = '<' then some [] else none) s
  | some tag, c :: s => openTag (if c = '>' then none else some (tag ++ [c])) s

variable {p t value : List Char}

theorem tagsFrom_append (tag? : Option (List Char)) (p s : List Char) :
    tagsFrom tag? (p ++ s) = tagsFrom tag? p ++ tagsFrom (openTag tag? p) s := by
  induction p generalizing tag? with
  | nil => cases tag? <;> rfl
  | cons c p ih =>
    cases tag? with
    | none => exact ih _
    | some tag =>
      rw [List.cons_append, tagsFrom, tagsFrom, openTag]
      split
      · rw [ih, List.cons_append]
      · exact ih _

/-- A text that ends outside of tags contributes its own. -/
theorem tags_append (closed : openTag none p = none) (s : List Char) :
    tags (p ++ s) = tags p ++ tags s := by
  rw [tags, tagsFrom_append, closed]
  rfl

theorem tags_append_of_notMem (h : '<' ∉ p) (s : List Char) : tags (p ++ s) = tags s := by
  induction p with
  | nil => rfl
  | cons c p ih =>
    rw [List.mem_cons, not_or] at h
    rw [List.cons_append, tags, tagsFrom, if_neg (Ne.symm h.1)]
    exact ih h.2

theorem tagsFrom_some (h : '>' ∉ t) (read s : List Char) :
    tagsFrom (some read) (t ++ '>' :: s) = (read ++ t) :: tags s := by
  induction t generalizing read with
  | nil => simp [tagsFrom, tags]
  | cons c t ih =>
    rw [List.mem_cons, not_or] at h
    rw [List.cons_append, tagsFrom, if_neg (Ne.symm h.1), ih h.2, List.append_assoc]
    rfl

theorem tags_cons (h : '>' ∉ t) (s : List Char) : tags ('<' :: (t ++ '>' :: s)) = t :: tags s :=
  tagsFrom_some h [] s

/-- A tag without the value of an attribute, given by what stands in front of the value. -/
def withoutValue (mark tag : List Char) : List Char :=
  match after? mark tag with
  | none => tag
  | some rest => tag.take (tag.length - rest.length) ++ rest.dropWhile (· ≠ '"')

theorem withoutValue_written {mark : List Char} (quiet : Quiet mark p) (some_ : mark ≠ [])
    (free : '"' ∉ value) (rest : List Char) :
    withoutValue mark (p ++ (mark ++ (value ++ '"' :: rest))) = p ++ (mark ++ '"' :: rest) := by
  have found : after? mark (p ++ (mark ++ (value ++ '"' :: rest))) = some (value ++ '"' :: rest) := by
    rw [quiet, after?_here some_]
  have front : (p ++ (mark ++ (value ++ '"' :: rest))).take
      ((p ++ (mark ++ (value ++ '"' :: rest))).length - (value ++ '"' :: rest).length) =
        p ++ mark := by
    rw [← List.append_assoc, List.length_append, Nat.add_sub_cancel_right, List.take_left]
  have behind : (value ++ '"' :: rest).dropWhile (· ≠ '"') = '"' :: rest :=
    congrArg Prod.snd (Page.upTo_append free rest)
  rw [withoutValue, found]
  dsimp only
  rw [front, behind, List.append_assoc]

theorem filter_escape (text : List Char) : (escape text).filter (IsMarkup ·) = [] := by
  refine List.filter_eq_nil_iff.2 fun c here => ?_
  simpa using not_isMarkup_of_mem_escape here

/-! ### Ampersands -/

def entities : List (List Char) :=
  ["&amp;".toList, "&lt;".toList, "&gt;".toList, "&quot;".toList, "&#39;".toList]

/-- Each ampersand of a text begins an entity in it. -/
def EntitiesOnly (s : List Char) : Prop :=
  ∀ rest, '&' :: rest <:+ s → ∃ entity ∈ entities, entity <+: '&' :: rest

theorem ampersand_suffix {rest s : List Char} (h : '&' ∉ p) (suffix_ : '&' :: rest <:+ p ++ s) :
    '&' :: rest <:+ s := by
  induction p with
  | nil => exact suffix_
  | cons c p ih =>
    rw [List.mem_cons, not_or] at h
    rcases List.suffix_cons_iff.1 suffix_ with whole | later
    · exact absurd (List.cons.inj whole).1 h.1
    · exact ih h.2 later

theorem entitiesOnly_of_notMem (h : '&' ∉ p) : EntitiesOnly p := by
  intro rest suffix_
  exact absurd (suffix_.subset List.mem_cons_self) h

theorem exists_tail_of_entity : ∀ entity ∈ entities, ∃ tail, entity = '&' :: tail ∧ '&' ∉ tail := by
  unfold entities
  repeat refine List.forall_mem_cons.2 ⟨⟨_, String.toList_ofList, by decide⟩, ?_⟩
  exact List.forall_mem_nil _

theorem escapeChar_cases (c : Char) :
    escapeChar c ∈ entities ∨ (escapeChar c = [c] ∧ '&' ∉ [c]) := by
  unfold escapeChar entities
  split
  · exact .inl (by simp)
  · exact .inl (by simp)
  · exact .inl (by simp)
  · exact .inl (by simp)
  · exact .inl (by simp)
  · next ampersand _ _ _ _ => exact .inr ⟨rfl, by simpa using Ne.symm ampersand⟩

/-- What is written for an inserted text has no other ampersands than those of entities. -/
theorem entitiesOnly_escape (text : List Char) : EntitiesOnly (escape text) := by
  intro rest suffix_
  induction text with
  | nil => exact absurd (List.suffix_nil.1 suffix_) (List.cons_ne_nil _ _)
  | cons c text ih =>
    rw [escape, List.flatMap_cons] at suffix_
    rcases escapeChar_cases c with isEntity | ⟨same, other⟩
    · obtain ⟨tail, entity, free⟩ := exists_tail_of_entity _ isEntity
      rw [entity, List.cons_append] at suffix_
      rcases List.suffix_cons_iff.1 suffix_ with whole | later
      · refine ⟨escapeChar c, isEntity, ?_⟩
        rw [whole, entity]
        exact List.prefix_append _ _
      · exact ih (ampersand_suffix free later)
    · rw [same] at suffix_
      exact ih (ampersand_suffix other suffix_)

end Html

namespace Page

open Html

/-! ### Texts with the same markup -/

/-- The tags of a page without the values of the attributes that hold what is inserted. -/
def outline (s : List Char) : List (List Char) :=
  (tags s).map fun tag => withoutValue descriptionMark (withoutValue nameMark tag)

structure SameMarkup (s t : List Char) : Prop where
  characters : s.filter (IsMarkup ·) = t.filter (IsMarkup ·)
  outline : outline s = outline t

/-- Two texts contribute the same markup, whatever follows them. -/
def Alike (p q : List Char) : Prop :=
  ∀ s t, SameMarkup s t → SameMarkup (p ++ s) (q ++ t)

variable {p q p' q' t t' : List Char}

theorem Alike.append (h : Alike p q) (h' : Alike p' q') : Alike (p ++ p') (q ++ q') := by
  intro s t same
  rw [List.append_assoc, List.append_assoc]
  exact h _ _ (h' _ _ same)

theorem alike_of_closed (closed : openTag none p = none) : Alike p p := by
  intro s t same
  constructor
  · rw [List.filter_append, List.filter_append, same.characters]
  · have tags_ := same.outline
    unfold outline at tags_ ⊢
    rw [tags_append closed, tags_append closed, List.map_append, List.map_append, tags_]

/-- The same of a text that is given in quotes. -/
theorem alike_markup {s : String} (h : s = String.ofList p) (closed : openTag none p = none) :
    Alike s.toList s.toList := by
  rw [h, String.toList_ofList]
  exact alike_of_closed closed

theorem alike_escape (x y : List Char) : Alike (escape x) (escape y) := by
  have free (x : List Char) : '<' ∉ escape x := notMem_escape (by decide) x
  intro s t same
  constructor
  · rw [List.filter_append, List.filter_append, filter_escape, filter_escape, same.characters]
  · have tags_ := same.outline
    unfold outline at tags_ ⊢
    rw [tags_append_of_notMem (free x), tags_append_of_notMem (free y), tags_]

/-- Two tags that differ in the values of the two attributes only. -/
theorem alike_tag (inside : '>' ∉ t) (inside' : '>' ∉ t')
    (characters : t.filter (IsMarkup ·) = t'.filter (IsMarkup ·))
    (same : withoutValue descriptionMark (withoutValue nameMark t) =
      withoutValue descriptionMark (withoutValue nameMark t')) :
    Alike ('<' :: (t ++ ['>'])) ('<' :: (t' ++ ['>'])) := by
  have cut (t s : List Char) : '<' :: (t ++ ['>']) ++ s = '<' :: (t ++ '>' :: s) := by simp
  intro s u rest
  rw [cut, cut]
  constructor
  · simp only [List.filter_cons, List.filter_append, characters, rest.characters]
  · have tags_ := rest.outline
    unfold outline at tags_ ⊢
    rw [tags_cons inside, tags_cons inside', List.map_cons, List.map_cons, same, tags_]

theorem alike_lines {ls : List String} (h : ∀ l ∈ ls, Alike l.toList l.toList) :
    Alike (lines ls).toList (lines ls).toList := by
  have newline : Alike ['\n'] ['\n'] := alike_of_closed (by decide)
  rw [toList_lines]
  induction ls with
  | nil => exact fun _ _ same => same
  | cons l ls ih =>
    obtain ⟨first, others⟩ := List.forall_mem_cons.1 h
    rw [List.flatMap_cons]
    exact (first.append newline).append (ih others)

/-! ### The parts of a page -/

theorem alike_head : Alike head.toList head.toList := by
  refine alike_lines ?_
  repeat refine List.forall_mem_cons.2 ⟨alike_markup rfl (by decide), ?_⟩
  exact List.forall_mem_nil _

theorem alike_directory {status status' : BuildStatus} (same : status.present = status'.present) :
    Alike ((directory status).flatMap Piece.write) ((directory status').flatMap Piece.write) := by
  simp only [directory, List.flatMap_cons, List.flatMap_nil, Piece.write, same]
  refine (alike_markup rfl (by decide)).append <|
    (alike_escape status.path.toList status'.path.toList).append <|
    (alike_markup rfl (by decide)).append <| Alike.append ?_ <|
    (alike_markup rfl (by decide)).append fun _ _ same => same
  split
  · exact alike_markup rfl (by decide)
  · exact alike_markup rfl (by decide)

/-- The name of the tag of a checkbox. -/
def inputWord : List Char :=
  ['i', 'n', 'p', 'u', 't']

/-- The checkbox of an option, without its angle brackets. -/
def checkbox (m : String × OptionEntry) : List Char :=
  (inputWord ++ beforeName) ++ (nameMark ++ (escape m.1.toList ++
    '"' :: ' ' :: (descriptionMark ++ (escape m.2.description.toList ++
      '"' :: checkedFlag m.2.value))))

/-- What all checkboxes with the same value have in common. -/
def blankCheckbox (value : Bool) : List Char :=
  (((inputWord ++ beforeName) ++ nameMark) ++ ['"', ' ']) ++
    (descriptionMark ++ '"' :: checkedFlag value)

theorem write_row_checkbox (m : String × OptionEntry) :
    (row m.1 m.2).flatMap Piece.write =
      beforeInput m ++ ('<' :: (checkbox m ++ ['>']) ++ "</td></tr>\n".toList) := by
  have cut := write_row m []
  rw [List.append_nil, List.append_nil] at cut
  rw [cut]
  simp [checkbox, inputMark, inputWord]

theorem withoutValues_checkbox (m : String × OptionEntry) :
    withoutValue descriptionMark (withoutValue nameMark (checkbox m)) =
      blankCheckbox m.2.value := by
  have free (text : List Char) : '"' ∉ escape text := notMem_escape (by decide) text
  have word : Quiet nameMark inputWord := quiet_of_clear (by decide)
  have word' : Quiet descriptionMark inputWord := quiet_of_clear (by decide)
  have front : Quiet nameMark beforeName := quiet_markup rfl (by decide)
  have front' : Quiet descriptionMark beforeName := quiet_markup rfl (by decide)
  have mark : Quiet descriptionMark nameMark := quiet_markup rfl (by decide)
  have between : Quiet descriptionMark ['"', ' '] := quiet_of_clear (by decide)
  have hidden := withoutValue_written (word.append front) (by decide) (free m.1.toList)
    (' ' :: (descriptionMark ++ (escape m.2.description.toList ++ '"' :: checkedFlag m.2.value)))
  have hidden' := withoutValue_written (((word'.append front').append mark).append between)
    (by decide) (free m.2.description.toList) (checkedFlag m.2.value)
  rw [checkbox, hidden, blankCheckbox, ← hidden']
  simp only [List.append_assoc, List.cons_append, List.nil_append]

theorem filter_checkbox (m : String × OptionEntry) :
    (checkbox m).filter (IsMarkup ·) = (blankCheckbox m.2.value).filter (IsMarkup ·) := by
  have quote : decide (IsMarkup '"') = true := by decide
  have blank : decide (IsMarkup ' ') = false := by decide
  simp only [checkbox, blankCheckbox, List.filter_append, List.filter_cons, filter_escape, quote,
    blank, Bool.false_eq_true, if_true, if_false, List.append_assoc, List.cons_append,
    List.nil_append]

theorem notMem_checkbox (m : String × OptionEntry) : '>' ∉ checkbox m := by
  have free (text : List Char) : '>' ∉ escape text := notMem_escape (by decide) text
  have word : '>' ∉ inputWord := by decide
  have front : '>' ∉ beforeName := by decide
  have name : '>' ∉ nameMark := by decide
  have description : '>' ∉ descriptionMark := by decide
  have flag : '>' ∉ checkedFlag m.2.value := by
    cases m.2.value <;> decide
  simp only [checkbox, List.mem_append, List.mem_cons, not_or]
  exact ⟨⟨word, front⟩, name, free _, by decide, by decide, description, free _, by decide, flag⟩

theorem alike_row {m m' : String × OptionEntry} (same : m.2.value = m'.2.value) :
    Alike ((row m.1 m.2).flatMap Piece.write) ((row m'.1 m'.2).flatMap Piece.write) := by
  have before : Alike (beforeInput m) (beforeInput m') :=
    (alike_markup rfl (by decide)).append <|
      (alike_escape m.1.toList m'.1.toList).append <|
      (alike_markup rfl (by decide)).append <|
      (alike_escape m.2.description.toList m'.2.description.toList).append <|
      alike_markup rfl (by decide)
  have input : Alike ('<' :: (checkbox m ++ ['>'])) ('<' :: (checkbox m' ++ ['>'])) := by
    refine alike_tag (notMem_checkbox m) (notMem_checkbox m') ?_ ?_
    · rw [filter_checkbox, filter_checkbox, same]
    · rw [withoutValues_checkbox, withoutValues_checkbox, same]
  have behind : Alike "</td></tr>\n".toList "</td></tr>\n".toList :=
    alike_markup rfl (by decide)
  rw [write_row_checkbox, write_row_checkbox]
  exact before.append (input.append behind)

theorem alike_rows {members members' : List (String × OptionEntry)}
    (same : members.map (fun m => m.2.value) = members'.map (fun m => m.2.value)) :
    Alike ((members.flatMap fun m => row m.1 m.2).flatMap Piece.write)
      ((members'.flatMap fun m => row m.1 m.2).flatMap Piece.write) := by
  induction members generalizing members' with
  | nil =>
    obtain rfl := List.map_eq_nil_iff.1 same.symm
    exact fun _ _ same => same
  | cons m members ih =>
    obtain ⟨m', later, rfl, first, others⟩ := List.map_eq_cons_iff.1 same.symm
    rw [List.flatMap_cons, List.flatMap_cons, List.flatMap_append, List.flatMap_append]
    exact (alike_row first.symm).append (ih others.symm)

theorem alike_table {options options' : OptionSet}
    (same : options.toList.map (fun m => m.2.value) = options'.toList.map (fun m => m.2.value)) :
    Alike ((table options).flatMap Piece.write) ((table options').flatMap Piece.write) := by
  unfold table
  cases listed : options.toList with
  | nil =>
    rw [listed] at same
    rw [List.map_eq_nil_iff.1 same.symm]
    simp only [List.flatMap_cons, List.flatMap_nil, Piece.write]
    exact (alike_markup rfl (by decide)).append fun _ _ same => same
  | cons m members =>
    rw [listed] at same
    obtain ⟨m', later, listed', -, -⟩ := List.map_eq_cons_iff.1 same.symm
    rw [listed'] at same ⊢
    have rows := alike_rows same
    simp only [List.flatMap_cons, List.flatMap_nil, List.cons_append, List.flatMap_append,
      Piece.write, List.append_nil] at rows ⊢
    exact (alike_markup rfl (by decide)).append
      (rows.append (alike_markup rfl (by decide)))

theorem sameMarkup_render {options options' : OptionSet} {status status' : BuildStatus}
    (values : options.toList.map (fun m => m.2.value) =
      options'.toList.map (fun m => m.2.value))
    (present : status.present = status'.present) :
    SameMarkup (render options status).toList (render options' status').toList := by
  rw [toList_render, toList_render]
  exact (alike_head.append (alike_directory present)) _ _ (alike_table values _ _ ⟨rfl, rfl⟩)

/-! ### Ampersands of a page -/

/-- A text that is given in quotes, and that has no ampersand. -/
theorem notMem_markup {s : String} (h : s = String.ofList p) (free : p.all (· ≠ '&') = true) :
    '&' ∉ s.toList := by
  rw [h, String.toList_ofList]
  intro there
  exact absurd rfl (of_decide_eq_true (List.all_eq_true.1 free _ there))

theorem entitiesOnly_markup {s : String} (h : s = String.ofList p)
    (free : p.all (· ≠ '&') = true) : EntitiesOnly (Piece.markup s).write :=
  entitiesOnly_of_notMem (notMem_markup h free)

theorem entitiesOnly_lines {ls : List String} (h : ∀ l ∈ ls, '&' ∉ l.toList) :
    EntitiesOnly (Piece.markup (lines ls)).write := by
  refine entitiesOnly_of_notMem ?_
  rw [Piece.write, toList_lines, List.mem_flatMap]
  rintro ⟨l, listed, there⟩
  rcases List.mem_append.1 there with inside | newline
  · exact h l listed inside
  · exact absurd newline (by decide)

theorem entitiesOnly_head : EntitiesOnly (Piece.markup head).write := by
  refine entitiesOnly_lines ?_
  repeat refine List.forall_mem_cons.2 ⟨notMem_markup rfl (by decide), ?_⟩
  exact List.forall_mem_nil _

theorem entitiesOnly_script : EntitiesOnly (Piece.markup script).write := by
  refine entitiesOnly_lines ?_
  repeat refine List.forall_mem_cons.2 ⟨notMem_markup rfl (by decide), ?_⟩
  exact List.forall_mem_nil _

theorem notMem_actions : '&' ∉ actions.toList := by
  unfold actions
  simp only [String.toList_append]
  repeat refine List.not_mem_append ?_ (notMem_markup rfl (by decide))
  exact notMem_markup rfl (by decide)

theorem entitiesOnly_actions : EntitiesOnly (Piece.markup actions).write :=
  entitiesOnly_of_notMem notMem_actions

theorem entitiesOnly_directory (status : BuildStatus) :
    ∀ piece ∈ directory status, EntitiesOnly piece.write := by
  simp only [directory, List.forall_mem_cons]
  refine ⟨entitiesOnly_markup rfl (by decide), entitiesOnly_escape _,
    entitiesOnly_markup rfl (by decide), ?_, entitiesOnly_markup rfl (by decide +kernel),
    List.forall_mem_nil _⟩
  split
  · exact entitiesOnly_markup rfl (by decide)
  · exact entitiesOnly_markup rfl (by decide)

theorem entitiesOnly_row (name : String) (entry : OptionEntry) :
    ∀ piece ∈ row name entry, EntitiesOnly piece.write := by
  simp only [row, List.forall_mem_cons]
  refine ⟨entitiesOnly_markup rfl (by decide), entitiesOnly_escape _,
    entitiesOnly_markup rfl (by decide), entitiesOnly_escape _,
    entitiesOnly_markup rfl (by decide), entitiesOnly_escape _,
    entitiesOnly_markup rfl (by decide), entitiesOnly_escape _,
    entitiesOnly_markup rfl (by decide), ?_, entitiesOnly_markup rfl (by decide +kernel),
    List.forall_mem_nil _⟩
  split
  · exact entitiesOnly_markup rfl (by decide)
  · exact entitiesOnly_markup rfl (by decide)

theorem entitiesOnly_table (options : OptionSet) :
    ∀ piece ∈ table options, EntitiesOnly piece.write := by
  unfold table
  split
  · rw [List.forall_mem_cons]
    exact ⟨entitiesOnly_markup rfl (by decide), List.forall_mem_nil _⟩
  · simp only [List.cons_append, List.forall_mem_cons, List.forall_mem_append,
      List.forall_mem_flatMap]
    exact ⟨entitiesOnly_markup rfl (by decide), fun m _ => entitiesOnly_row m.1 m.2,
      entitiesOnly_markup rfl (by decide), List.forall_mem_nil _⟩

theorem entitiesOnly_pieces (options : OptionSet) (status : BuildStatus) :
    ∀ piece ∈ pieces options status, EntitiesOnly piece.write := by
  simp only [pieces, List.cons_append, List.forall_mem_cons, List.forall_mem_append]
  exact ⟨entitiesOnly_head, ⟨entitiesOnly_directory status, entitiesOnly_table options⟩,
    entitiesOnly_actions, entitiesOnly_script, entitiesOnly_markup rfl (by decide),
    List.forall_mem_nil _⟩

/-- What is inserted in a page cannot change its markup: that is up to the values of the options and
to the state of the build directory. And each ampersand begins an entity, in the part of the page
that it stands in. -/
theorem markup_render {options options' : OptionSet} {status status' : BuildStatus}
    (values : options.toList.map (fun m => m.2.value) =
      options'.toList.map (fun m => m.2.value))
    (present : status.present = status'.present) :
    SameMarkup (render options status).toList (render options' status').toList ∧
      ∀ piece ∈ pieces options status, EntitiesOnly piece.write :=
  ⟨sameMarkup_render values present, entitiesOnly_pieces options status⟩

/-- Options with names and descriptions that look like markup. -/
def hostile : OptionSet :=
  .ofList [("\" checked>", ⟨"<script>alert('&amp;')</script>", true⟩),
    ("</code>", ⟨"data-name=\"", false⟩)]

/-- Options with the same values and plain texts. -/
def harmless : OptionSet :=
  .ofList [("A", ⟨"x", true⟩), ("B", ⟨"", false⟩)]

theorem markup_render_hostile :
    hostile.toList.map (fun m => m.2.value) = harmless.toList.map (fun m => m.2.value) ∧
      SameMarkup (render hostile ⟨true, "</code><img>"⟩).toList
        (render harmless ⟨true, "/b"⟩).toList ∧
      ∀ piece ∈ pieces hostile ⟨true, "</code><img>"⟩, EntitiesOnly piece.write := by
  have values : hostile.toList.map (fun m => m.2.value) =
      harmless.toList.map (fun m => m.2.value) := by decide
  exact ⟨values, markup_render values rfl⟩

end Page

end BuildPanel
