import BuildPanel.Proofs.Json.Local

/-!
Words, strings and numbers, and whatever else may be skipped: none of their readers looks further
than to the byte behind what it takes.
-/

namespace BuildPanel.Json

variable {α : Type} {s rest : Input}

/-! ### Words -/

theorem readWord_eq_ok {word : List UInt8} : readWord word s = .ok rest ↔ s = word ++ rest := by
  induction word generalizing s with
  | nil => simp [readWord]
  | cons w word ih =>
    cases s with
    | nil => simp [readWord]
    | cons b s =>
      unfold readWord
      by_cases same : b = w
      · simp [same, ih]
      · simp [same]

theorem skips_readWord (word : List UInt8) : Skips (readWord word) := by
  refine skips_iff.2 ?_
  intro s rest h
  obtain rfl := readWord_eq_ok.1 h
  exact ⟨word, rfl, fun t _ => readWord_eq_ok.2 rfl⟩

theorem local_readBool : Local readBool := by
  refine Local.afterSpace _ (fun s => rfl) ?_
  intro b
  split_ifs
  · exact (skips_readWord afterT).giving true
  · exact (skips_readWord afterF).giving false
  · exact Local.error _

/-! ### Strings -/

theorem local_readUnit : Local readUnit := by
  intro s n rest h
  unfold readUnit at h
  split at h
  · next a b c d _ =>
    cases quad : hexQuad? a b c d with
    | none =>
      rw [quad] at h
      cases h
    | some m =>
      rw [quad] at h
      cases h
      exact ⟨[a, b, c, d], rfl, fun t _ => by simp [readUnit, quad]⟩
  · cases h

/-- The digits of the second unit of a pair. -/
def readTrailing (high : Nat) : Reader Char := fun s =>
  match readUnit s with
  | .error f => .error f
  | .ok (low, rest) =>
    if isTrailing low then .ok (pairChar high low, rest) else .error (.before .loneSurrogate rest)

theorem local_readTrailing (high : Nat) : Local (readTrailing high) := by
  refine local_readUnit.chain id
    (fun s => by unfold readTrailing; rcases readUnit s with f | ⟨n, r⟩ <;> rfl) ?_
  intro low
  split_ifs
  · exact Local.pure _
  · exact Local.error _

theorem local_readSecondUnit (high : Nat) : Local (readSecondUnit high) := by
  intro s c rest h
  unfold readSecondUnit at h
  split at h
  · cases h
  · split at h
    · cases h
    · next s =>
      obtain ⟨used, rfl, takes⟩ := local_readTrailing high s c rest h
      exact ⟨92 :: 117 :: used, rfl, takes⟩
    · cases h
  · cases h

theorem local_readEscape : Local readEscape := by
  refine Local.afterByte _ (fun s => rfl) ?_
  intro b
  cases simpleEscape? b with
  | some c => exact Local.pure c
  | none =>
    dsimp only
    split_ifs
    · exact Local.error _
    · refine local_readUnit.chain id (fun s => by rcases readUnit s with f | ⟨n, r⟩ <;> rfl) ?_
      intro n
      split_ifs
      · exact Local.error _
      · exact local_readSecondUnit n
      · exact Local.pure _

/-- What a byte of a string is: its end, the beginning of an escape, or one that stands for
itself. -/
def stringNext (met : List UInt8) (b : UInt8) : Reader (List UInt8 ⊕ List UInt8) := fun s =>
  if b = 34 then .ok (.inr met.reverse, s)
  else if b = 92 then
    (readEscape s).map fun (c, rest) => (.inl ((Text.encodeChar c).reverse ++ met), rest)
  else if b < 32 then .error (.before .controlCharacter s)
  else .ok (.inl (b :: met), s)

/-- One step through a string. -/
def stringStep (met : List UInt8) : Reader (List UInt8 ⊕ List UInt8) := fun s =>
  match s with
  | [] => .error (.before .endInString [])
  | b :: r => stringNext met b r

theorem stringBytes_eq (bound : Input) (met : List UInt8) (s : Input) :
    stringBytes bound met s = steps stringStep (.before .endInString) bound met s := by
  induction bound generalizing met s with
  | nil => cases s <;> rfl
  | cons _ bound ih =>
    cases s with
    | nil => rfl
    | cons b s =>
      dsimp only [stringBytes, steps, stringStep, stringNext]
      split_ifs
      · rfl
      · rcases readEscape s with f | ⟨c, r⟩
        · rfl
        · exact ih _ r
      · rfl
      · exact ih _ s

theorem local_stringNext (met : List UInt8) (b : UInt8) : Local (stringNext met b) := by
  unfold stringNext
  split_ifs
  · exact Local.pure _
  · exact local_readEscape.map fun c => Sum.inl ((Text.encodeChar c).reverse ++ met)
  · exact Local.error _
  · exact Local.pure _

theorem eager_stringStep (met : List UInt8) : Eager (stringStep met) :=
  Eager.afterByte _ (fun _ => rfl) (local_stringNext met)

/-- The text of the bytes of a string. -/
def decodeString (bytes : List UInt8) : Reader (List Char) := fun s =>
  match Text.decode? bytes with
  | some text => .ok (text, s)
  | none => .error (.before .invalidUnicode s)

theorem local_decodeString (bytes : List UInt8) : Local (decodeString bytes) := by
  unfold decodeString
  cases Text.decode? bytes with
  | none => exact Local.error _
  | some text => exact Local.pure text

theorem local_readString : Local readString := by
  have bytes : Local fun s => stringBytes s [] s := by
    simp only [stringBytes_eq]
    exact Eager.steps eager_stringStep _ []
  refine (bytes.chain id (fun _ => rfl) local_decodeString).congr ?_
  intro s found
  unfold readString
  rcases stringBytes s [] s with f | ⟨bytes, r⟩
  · simp
  · dsimp only [decodeString]
    cases Text.decode? bytes <;> simp

theorem local_readText : Local readText := by
  refine Local.afterSpace _ (fun s => rfl) ?_
  intro b
  split_ifs
  · exact local_readString.map String.ofList
  · exact Local.error _

/-! ### Passing over strings and numbers -/

theorem skips_skipEscape : Skips skipEscape := by
  refine Skips.afterByte _ (fun s => rfl) ?_
  intro b
  split_ifs
  · exact Skips.pure
  · refine local_readUnit.chain id ?_ fun _ => Local.pure ()
    intro s
    dsimp only
    rcases readUnit s with f | ⟨n, r⟩ <;> rfl
  · exact Skips.error _

/-- What a byte of a string is that is skipped. -/
def skipStringNext (b : UInt8) : Reader (Unit ⊕ Unit) := fun s =>
  if b = 34 then .ok (.inr (), s)
  else if b = 92 then (skipEscape s).map (.inl (), ·)
  else if b < 32 then .error (.before .controlCharacter (b :: s))
  else .ok (.inl (), s)

def skipStringStep (_ : Unit) : Reader (Unit ⊕ Unit) := fun s =>
  match s with
  | [] => .error (.before .endInString [])
  | b :: r => skipStringNext b r

theorem skipStringBytes_eq (bound s : Input) : (skipStringBytes bound s).map ((), ·) =
    steps skipStringStep (.before .endInString) bound () s := by
  induction bound generalizing s with
  | nil => cases s <;> rfl
  | cons _ bound ih =>
    cases s with
    | nil => rfl
    | cons b s =>
      dsimp only [skipStringBytes, steps, skipStringStep, skipStringNext]
      split_ifs
      · rfl
      · rcases skipEscape s with f | r
        · rfl
        · exact ih r
      · rfl
      · exact ih s

theorem local_skipStringNext (b : UInt8) : Local (skipStringNext b) := by
  unfold skipStringNext
  split_ifs
  · exact Local.pure _
  · exact skips_skipEscape.giving _
  · exact Local.error _
  · exact Local.pure _

theorem skips_skipString : Skips skipString := by
  simp only [Skips, skipString, skipStringBytes_eq]
  exact Eager.steps (fun _ => .afterByte _ (fun _ => rfl) local_skipStringNext) _ ()

/-- The digits of an exponent, behind its sign. -/
def skipExponentDigits (s : Input) : Except Failure Input :=
  match s with
  | [] => .error (.before .invalidNumber [])
  | b :: r => if isDigit b then .ok (r.dropWhile isDigit) else .error (.before .invalidNumber r)

theorem skipExponent_eq (s : Input) :
    skipExponent s =
      if s.head? = some 43 ∨ s.head? = some 45 then skipExponentDigits (s.drop 1)
      else skipExponentDigits s := by
  unfold skipExponent
  split
  · rfl
  · rfl
  · next plus minus =>
    rw [if_neg]
    · rfl
    · cases s with
      | nil => nofun
      | cons b r =>
        rintro (sign | sign)
        · cases sign
          exact plus r rfl
        · cases sign
          exact minus r rfl

theorem skips_skipExponent : Skips skipExponent := by
  have digits : Skips skipExponentDigits := by
    refine Skips.afterByte _ (fun _ => rfl) ?_
    intro b
    split_ifs
    · exact skips_run isDigit
    · exact Skips.error _
  refine @Skips.peek (fun b s =>
    if b = some 43 ∨ b = some 45 then skipExponentDigits (s.drop 1) else skipExponentDigits s) _
    skipExponent_eq ?_
  intro b
  split_ifs
  · exact digits.drop
  · exact digits

theorem skips_skipAfterFraction : Skips skipAfterFraction := by
  refine @Skips.peek (fun b s => if b.any isExponentMark then skipExponent (s.drop 1) else .ok s)
    _ ?_ ?_
  · intro s
    cases s <;> rfl
  · intro b
    split_ifs
    · exact skips_skipExponent.drop
    · exact Skips.pure

theorem skips_skipFraction : Skips skipFraction := by
  refine Skips.afterByte _ (fun s => rfl) ?_
  intro b
  split_ifs
  · exact (skips_run isDigit).chain id (fun s => rfl) skips_skipAfterFraction
  · exact Skips.error _

/-- What follows the digits in front of the point, the first of which is given. -/
def skipAfterWhole (b : UInt8) (after : Input) : Except Failure Input :=
  match after with
  | c :: r =>
    if b = 48 ∧ isDigit c then .error (.at .invalidNumber after)
    else if c = 46 then skipFraction r
    else skipAfterFraction after
  | [] => .ok []

theorem skips_skipAfterWhole (b : UInt8) : Skips (skipAfterWhole b) := by
  refine @Skips.peek (fun c s => if b = 48 ∧ c.any isDigit then .error (.at .invalidNumber s)
    else if c = some 46 then skipFraction (s.drop 1)
    else skipAfterFraction s) _ ?_ ?_
  · intro s
    cases s <;> simp [skipAfterWhole, skipAfterFraction]
  · intro c
    split_ifs
    · exact Skips.error _
    · exact skips_skipFraction.drop
    · exact skips_skipAfterFraction

/-- What follows the first byte of a number. -/
theorem skips_skipNumber_next (b : UInt8) : Skips fun r => skipNumber (b :: r) := by
  dsimp only [skipNumber]
  split_ifs
  · exact Skips.error _
  · exact skips_skipAfterWhole b
  · exact (skips_run isDigit).chain id (fun s => rfl) (skips_skipAfterWhole b)

theorem skips_skipNumber : Skips skipNumber :=
  Skips.afterByte (.before .invalidNumber []) (fun s => by cases s <;> rfl) skips_skipNumber_next

/-! ### Passing over any value -/

theorem skips_readColon : Skips readColon := by
  refine @Skips.afterSpace (fun b r =>
    if b = 58 then .ok r else .error (.at .expectedColon (b :: r))) _ (.before .endInObject [])
    ?_ ?_
  · intro s
    unfold readColon
    rcases skipSpace s with _ | ⟨b, r⟩
    · rfl
    · split
      · next colon =>
        cases colon
        rfl
      · next empty => cases empty
      · next colon _ => exact (if_neg fun same => colon r (by rw [same])).symm
  · intro b
    split_ifs
    · exact Skips.pure
    · exact Skips.error _

/-- The name of a member that is skipped, with its colon, behind its first byte. -/
def skipNameNext (b : UInt8) (r : Input) : Except Failure Input :=
  if b = 34 then
    match skipString r with
    | .ok rest => readColon rest
    | .error f => .error f
  else .error (.at .keyNotString (b :: r))

theorem skips_skipNameNext (b : UInt8) : Skips (skipNameNext b) := by
  unfold skipNameNext
  split_ifs
  · refine skips_skipString.chain id ?_ skips_readColon
    intro s
    cases skipString s <;> rfl
  · exact Skips.error _

theorem skips_skipName : Skips skipName := by
  refine @Skips.afterSpace skipNameNext _ (.before .endInObject []) ?_ skips_skipNameNext
  intro s
  unfold skipName skipNameNext
  rcases skipSpace s with _ | ⟨b, r⟩
  · rfl
  · split
    · next mark =>
      cases mark
      rfl
    · next empty => cases empty
    · next mark _ => exact (if_neg fun same => mark r (by rw [same])).symm

/-- The first value inside a bracket, or its end, where a byte comes next. -/
def skipOpenedHere (bracket : Bracket) (b : UInt8) : Reader Bool := fun s =>
  if b = bracket.close then .ok (true, s.drop 1)
  else
    match bracket with
    | .square => .ok (false, s)
    | .curly => (skipName s).map (false, ·)

theorem local_skipOpened (bracket : Bracket) : Local (skipOpened bracket) := by
  refine @Local.peekSpace _ (skipOpenedHere bracket) _ _ (fun _ => rfl) ?_
  intro b
  unfold skipOpenedHere
  split_ifs
  · exact (Local.pure true).drop
  · cases bracket with
    | square => exact Local.pure false
    | curly => exact skips_skipName.giving false

theorem eager_skipFollowing (bracket : Bracket) : Eager (skipFollowing bracket) := by
  refine Eager.afterSpace _ (fun _ => rfl) ?_
  intro b
  split_ifs
  · cases bracket with
    | square => exact Local.pure false
    | curly => exact skips_skipName.giving false
  · exact Local.pure true
  · exact Local.error _

/-- A first byte begins a value without parts, which ends somewhere, or it opens a bracket. -/
theorem skipScalar_cases (b : UInt8) :
    (∃ pass, Skips pass ∧ ∀ r, skipScalar b r = (pass r).map some) ∨
      ∀ r, skipScalar b r = .ok none := by
  unfold skipScalar
  split_ifs
  · exact .inl ⟨_, skips_readWord afterN, fun _ => rfl⟩
  · exact .inl ⟨_, skips_readWord afterT, fun _ => rfl⟩
  · exact .inl ⟨_, skips_readWord afterF, fun _ => rfl⟩
  · exact .inl ⟨_, skips_skipNumber, fun _ => rfl⟩
  · exact .inl ⟨_, skips_skipNumber_next b, fun _ => rfl⟩
  · exact .inl ⟨_, skips_skipString, fun _ => rfl⟩
  · exact .inr fun _ => rfl
  · exact .inl ⟨_, Skips.error fun r => .at .expectedValue (b :: r), fun _ => rfl⟩

/-- Where skipping goes on, unless a value has been skipped and no bracket is open. -/
def skipTo : SkipState → List Bracket → (SkipState × List Bracket) ⊕ Unit
  | .done, [] => .inr ()
  | state, unclosed => .inl (state, unclosed)

/-- Where skipping goes on inside a bracket, or behind it if it has just been closed. -/
def skipInside (bracket : Bracket) (outer : List Bracket) (closed : Bool) :
    (SkipState × List Bracket) ⊕ Unit :=
  if closed then skipTo .done outer else skipTo .value (bracket :: outer)

/-- What a value that begins with a byte is skipped by. -/
def skipFirst (outer : List Bracket) (b : UInt8) :
    Reader ((SkipState × List Bracket) ⊕ Unit) := fun r =>
  match skipScalar b r with
  | .error f => .error f
  | .ok (some rest) => .ok (skipTo .done outer, rest)
  | .ok none =>
    let bracket : Bracket := if b = 91 then .square else .curly
    (skipOpened bracket r).map fun (closed, rest) => (skipInside bracket outer closed, rest)

/-- One step of skipping. -/
def skipStep : SkipState × List Bracket → Reader ((SkipState × List Bracket) ⊕ Unit)
  | (.done, []) => fun _ => .error (.before .endInValue [])
  | (.done, bracket :: outer) => fun s =>
    (skipFollowing bracket s).map fun (closed, rest) => (skipInside bracket outer closed, rest)
  | (.value, outer) => fun s =>
    match skipSpace s with
    | [] => .error (.before .endInValue [])
    | b :: r => skipFirst outer b r

theorem skipSteps_eq (bound : Input) (state : SkipState) (unclosed : List Bracket) (s : Input) :
    (skipSteps bound state unclosed s).map ((), ·) = match skipTo state unclosed with
      | .inl x => steps skipStep (.before .endInValue) bound x s
      | .inr () => .ok ((), s) := by
  induction bound generalizing state unclosed s with
  | nil => cases state <;> cases unclosed <;> rfl
  | cons _ bound ih =>
    cases state with
    | value =>
      dsimp only [skipSteps, skipTo, steps, skipStep, skipFirst]
      rcases skipSpace s with _ | ⟨b, r⟩
      · rfl
      dsimp only
      rcases skipScalar b r with f | _ | rest
      · rfl
      · dsimp only
        rcases skipOpened (if b = 91 then .square else .curly) r with f | ⟨_ | _, rest⟩
        · rfl
        · exact ih _ _ rest
        · refine (ih _ _ rest).trans ?_
          cases unclosed <;> rfl
      · refine (ih _ _ rest).trans ?_
        cases unclosed <;> rfl
    | done =>
      cases unclosed with
      | nil => rfl
      | cons bracket outer =>
        dsimp only [skipSteps, skipTo, steps, skipStep]
        rcases skipFollowing bracket s with f | ⟨_ | _, rest⟩
        · rfl
        · exact ih _ _ rest
        · refine (ih _ _ rest).trans ?_
          cases outer <;> rfl

theorem local_skipFirst (outer : List Bracket) (b : UInt8) : Local (skipFirst outer b) := by
  obtain ⟨pass, passes, eq⟩ | opens := skipScalar_cases b
  · refine passes.before id ?_ (Local.pure (skipTo .done outer))
    intro r
    dsimp only [skipFirst]
    rw [eq]
    cases pass r <;> rfl
  · have eq : skipFirst outer b = fun r =>
        (skipOpened (if b = 91 then .square else .curly) r).map fun (closed, rest) =>
          (skipInside (if b = 91 then .square else .curly) outer closed, rest) := by
      funext r
      simp only [skipFirst, opens]
    rw [eq]
    exact (local_skipOpened _).map _

theorem eager_skipStep (x : SkipState × List Bracket) : Eager (skipStep x) := by
  obtain ⟨_ | _, unclosed⟩ := x
  · exact Eager.afterSpace _ (fun _ => rfl) (local_skipFirst unclosed)
  · cases unclosed with
    | nil => exact ⟨Local.error _, nofun⟩
    | cons bracket outer => exact (eager_skipFollowing bracket).map (skipInside bracket outer)

theorem skips_skipValue : Skips skipValue := by
  simp only [Skips, skipValue, skipSteps_eq]
  exact Local.steps (fun x => (eager_skipStep x).near)
    (fun x s _ r => (eager_skipStep x).less s _ r) _ _ 0

end BuildPanel.Json
