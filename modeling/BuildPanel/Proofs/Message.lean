import BuildPanel.Message
import BuildPanel.Proofs.Options.Json

/-!
What the panel writes as JSON comes back. Option sets, the answers to actions, their status and the
state of the build directory are read from the text that is written for them as they were, whatever
their names and texts hold. A message that is absent is not written, and reading takes a missing
message for an absent one.
-/

namespace BuildPanel

open Json

namespace Json

variable {α β : Type} {read : Reader α} {value : α} {written : List Char → Prop}

theorem Reads.map (h : Reads read value written) (f : α → β) :
    Reads (Reader.map f read) (f value) written := by
  intro blank s rest free spelled
  rw [Reader.map, h blank s rest free spelled]
  rfl

theorem local_readOptional_readText : Local (readOptional readText) := by
  refine @Local.peekSpace _ (fun b s =>
    if b = 110 then (readWord afterN (s.drop 1)).map (none, ·)
    else (readText s).map fun (text, rest) => (some text, rest)) _ (.before .endInValue []) ?_ ?_
  · intro s
    unfold readOptional
    rcases skipSpace s with _ | ⟨b, r⟩
    · rfl
    · split
      · next null =>
        cases null
        rfl
      · next null => exact (if_neg fun same => null r (by rw [same])).symm
  · intro b
    split_ifs
    · exact ((skips_readWord afterN).giving none).drop
    · exact local_readText.map some

/-- A text that may be absent is read where it is written. -/
theorem reads_optional (text : String) :
    Reads (readOptional readText) (some text) (SpellsText text.toList) := by
  intro blank s rest free spelled
  have found := reads_text text [] s rest nofun spelled
  obtain ⟨parts, -, rfl⟩ := spelled
  have quote : Text.encodeChar '"' = [34] := by decide
  have here := skipSpace_token free quote rfl (parts.flatten ++ ['"']) rest
  unfold readOptional
  rw [List.cons_append, here]
  simp only [List.nil_append, List.cons_append, Text.encode_cons, quote] at found
  simp [found, Except.map]

end Json

namespace Status

theorem local_readWord : Local Status.readWord := by
  refine @Local.chain _ _ _ (fun word s => (ofWord? word).elim
    (.error (.before (.mismatch (.unknownVariant word "`success` or `error`")) s))
    fun status => .ok (status, s)) _ local_readString id ?_ ?_
  · intro s
    unfold Status.readWord
    rcases readString s with f | ⟨word, rest⟩
    · rfl
    · dsimp only
      cases ofWord? word <;> rfl
  · intro word
    cases ofWord? word with
    | none => exact Local.error _
    | some status => exact Local.pure status

theorem skips_readNothing : Skips readNothing := by
  refine @Skips.afterSpace (fun b r =>
    if b = 110 then Json.readWord afterN r else .error (otherType "unit" (b :: r))) _
    (.before .endInValue []) ?_ ?_
  · intro s
    unfold readNothing
    rcases skipSpace s with _ | ⟨b, r⟩
    · rfl
    · split
      · next empty => cases empty
      · next null =>
        cases null
        rfl
      · next _ null => exact (if_neg fun same => null r (by rw [same])).symm
  · intro b
    split_ifs
    · exact skips_readWord afterN
    · exact Skips.error _

/-- What is behind the word of a status that is written as an object. -/
def readClosing (status : Status) : Reader Status := fun s =>
  match readColon s with
  | .error f => .error f
  | .ok rest =>
    match readNothing rest with
    | .error f => .error f
    | .ok rest =>
      match skipSpace rest with
      | [] => .error (.before .endInObject [])
      | 125 :: r => .ok (status, r)
      | s => .error (.before .expectedValue s)

theorem local_readClosing (status : Status) : Local (readClosing status) := by
  have brace : Local fun rest => match skipSpace rest with
      | [] => (.error (.before .endInObject []) : Except Failure (Status × Input))
      | 125 :: r => .ok (status, r)
      | s => .error (.before .expectedValue s) := by
    refine @Local.afterSpace _ (fun b r =>
      if b = 125 then .ok (status, r) else .error (.before .expectedValue (b :: r))) _
      (.before .endInObject []) ?_ ?_
    · intro s
      rcases skipSpace s with _ | ⟨b, r⟩
      · rfl
      · split
        · next empty => cases empty
        · next same =>
          cases same
          rfl
        · next _ other => exact (if_neg fun same => other r (by rw [same])).symm
    · intro b
      split_ifs
      · exact Local.pure status
      · exact Local.error _
  exact skips_readColon.before id (fun _ => rfl) (skips_readNothing.before id (fun _ => rfl) brace)

theorem local_readObject : Local readObject := by
  refine @Local.afterSpace _ (fun b r =>
    if b = 34 then (Status.readWord r).bind fun found => readClosing found.1 found.2
    else .error (otherType "variant identifier" (b :: r))) _ (.before .endInValue []) ?_ ?_
  · intro s
    unfold readObject
    rcases skipSpace s with _ | ⟨b, r⟩
    · rfl
    · split
      · next empty => cases empty
      · next same =>
        cases same
        dsimp only
        rw [if_pos rfl]
        rcases Status.readWord r with _ | ⟨_, _⟩ <;> rfl
      · next _ other => exact (if_neg fun same => other r (by rw [same])).symm
  · intro b
    split_ifs
    · refine local_readWord.chain id (fun s => ?_) local_readClosing
      rcases Status.readWord s with _ | ⟨_, _⟩ <;> rfl
    · exact Local.error _

theorem local_readJson : Local readJson := by
  refine @Local.afterSpace _ (fun b r =>
    if b = 34 then Status.readWord r
    else if b = 123 then readObject r
    else .error (.at .expectedValue (b :: r))) _ (.before .endInValue []) ?_ ?_
  · intro s
    unfold readJson
    rcases skipSpace s with _ | ⟨b, r⟩
    · rfl
    · split
      · next empty => cases empty
      · next same =>
        cases same
        rfl
      · next same =>
        cases same
        rfl
      · next _ mark brace =>
        dsimp only
        rw [if_neg fun same => mark r (by rw [same]), if_neg fun same => brace r (by rw [same])]
  · intro b
    split_ifs
    · exact local_readWord
    · exact local_readObject
    · exact Local.error _

/-- A status is read from its word. -/
theorem reads_readJson (status : Status) :
    Reads readJson status (SpellsText status.word.toList) := by
  rintro blank _ rest free ⟨parts, spelled, rfl⟩
  have quote : Text.encodeChar '"' = [34] := by decide
  have here := skipSpace_token free quote rfl (parts.flatten ++ ['"']) rest
  unfold readJson
  rw [List.cons_append, here]
  simp [Status.readWord, readString_spelled spelled, ofWord?_word]

theorem readWhole_toJson (status : Status) :
    readWhole readJson (Text.encode status.toJson) = .ok status :=
  readWhole_of_reads status.reads_readJson (spells_quote status.word.toList)

end Status

/-! ### Answers -/

/-- An answer of a status and a text is read from these two members. -/
theorem Status.reads_answer {α : Type} (type name : String) (distinct : "status" ≠ name)
    (status : Status) (text : String) (make : Status × String → α) :
    Reads (Reader.map make (readRecord type Status.member ⟨name, readText, none⟩))
      (make (status, text)) (SpellsObject [("status".toList, SpellsText status.word.toList),
        (name.toList, SpellsText text.toList)]) := by
  have record := reads_record (a := Status.member) (b := ⟨name, readText, none⟩) type distinct
    Status.local_readJson local_readText status.reads_readJson (reads_text text)
  exact fun blank s rest free spelled => record.map make blank s rest free (.inl spelled)

theorem Status.spells_answer (status : Status) (name text : String) :
    SpellsObject [("status".toList, SpellsText status.word.toList),
        (name.toList, SpellsText text.toList)]
      (writeObject [writeMember "status".toList status.toJson,
        writeMember name.toList (quote text.toList)]) := by
  refine spells_writeObject (.cons ?_ (.cons ?_ .nil))
  · exact @spells_writeMember (_, _) _ (spells_quote status.word.toList)
  · exact @spells_writeMember (_, _) _ (spells_quote text.toList)

namespace SaveResponse

/-- The members of an answer to saving: a message is among them only if there is one. -/
def written (r : SaveResponse) : List Written :=
  ("status".toList, SpellsText r.status.word.toList) ::
    (r.message.map fun m => ("message".toList, SpellsText m.toList)).toList

theorem reads_readJson (r : SaveResponse) : Reads readJson r (SpellsObject r.written) := by
  obtain ⟨status, message⟩ := r
  have member := status.reads_readJson
  cases message with
  | none =>
    have record := reads_record_first (a := Status.member)
      (b := ⟨"message", readOptional readText, some none⟩) "SaveResponse" Status.local_readJson
      local_readOptional_readText member rfl
    exact record.map fun members => SaveResponse.mk members.1 members.2
  | some m =>
    have record := reads_record (a := Status.member)
      (b := ⟨"message", readOptional readText, some none⟩) "SaveResponse" (by decide)
      Status.local_readJson local_readOptional_readText member (reads_optional m)
    have read := record.map fun members => SaveResponse.mk members.1 members.2
    exact fun blank s rest free spelled => read blank s rest free (.inl spelled)

theorem spells_toJson (r : SaveResponse) : SpellsObject r.written r.toJson := by
  have status : SpellsMember ("status".toList, SpellsText r.status.word.toList)
      (writeMember "status".toList r.status.toJson) :=
    @spells_writeMember (_, _) _ (spells_quote r.status.word.toList)
  refine spells_writeObject (.cons status ?_)
  cases r.message with
  | none => exact .nil
  | some m => exact .cons (@spells_writeMember (_, _) _ (spells_quote m.toList)) .nil

theorem readWhole_toJson (r : SaveResponse) :
    readWhole readJson (Text.encode r.toJson) = .ok r :=
  readWhole_of_reads r.reads_readJson r.spells_toJson

end SaveResponse

theorem CleanResponse.readWhole_toJson (r : CleanResponse) :
    readWhole readJson (Text.encode r.toJson) = .ok r := by
  have read := Status.reads_answer "CleanResponse" "message" (by decide) r.status r.message
    fun members => CleanResponse.mk members.1 members.2
  exact readWhole_of_reads read (r.status.spells_answer "message" r.message)

theorem ApplyResponse.readWhole_toJson (r : ApplyResponse) :
    readWhole readJson (Text.encode r.toJson) = .ok r := by
  have read := Status.reads_answer "ApplyResponse" "output" (by decide) r.status r.output
    fun members => ApplyResponse.mk members.1 members.2
  exact readWhole_of_reads read (r.status.spells_answer "output" r.output)

theorem BuildStatus.readWhole_toJson (r : BuildStatus) :
    readWhole readJson (Text.encode r.toJson) = .ok r := by
  have record := reads_record (a := ⟨"exists", readBool, none⟩) (b := ⟨"path", readText, none⟩)
    "BuildStatus" (by decide) local_readBool local_readText (reads_bool r.present)
    (reads_text r.path)
  have read := record.map fun members => BuildStatus.mk members.1 members.2
  refine readWhole_of_reads read (.inl (spells_writeObject (.cons ?_ (.cons ?_ .nil))))
  · exact @spells_writeMember (_, _) _ (spells_writeBool r.present)
  · exact @spells_writeMember (_, _) _ (spells_quote r.path.toList)

/-! ### There and back -/

/-- What is written for a value makes up a text that is read as this value. -/
def Json.RoundTrips {α : Type} (write : α → List Char) (read : Reader α) : Prop :=
  ∀ value, readWhole read (Text.encode (write value)) = .ok value

/-- Every form comes back as it was: option sets with their order, and each kind of answer, with
any names and any texts. An answer to saving shows its status alone if there is no message. -/
theorem round_trips_toJson :
    RoundTrips OptionSet.toJson OptionSet.readJson ∧ RoundTrips Status.toJson Status.readJson ∧
      RoundTrips SaveResponse.toJson SaveResponse.readJson ∧
      RoundTrips CleanResponse.toJson CleanResponse.readJson ∧
      RoundTrips ApplyResponse.toJson ApplyResponse.readJson ∧
      RoundTrips BuildStatus.toJson BuildStatus.readJson ∧
      ∀ status, (SaveResponse.mk status none).toJson =
        writeObject [writeMember "status".toList status.toJson] := by
  refine ⟨fun options => ?_, fun status => ?_, fun r => ?_, fun r => ?_, fun r => ?_, fun r => ?_,
    fun status => rfl⟩
  · exact OptionSet.readWhole_of_spells options.spells_toJson
  · exact status.readWhole_toJson
  · exact r.readWhole_toJson
  · exact r.readWhole_toJson
  · exact r.readWhole_toJson
  · exact r.readWhole_toJson

end BuildPanel
