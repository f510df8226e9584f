import Mathlib.Data.List.Forall2
import BuildPanel.Proofs.Json.Members
import BuildPanel.Proofs.Text.Utf8

/-!
How values may be written in JSON, and that they are read so. A character stands for itself, or is
written as one of the escapes of the format, as a code unit in hexadecimal, or as a pair of such
units; and blanks may stand between all tokens. The ways to write a value follow the format alone,
not the way in which it is read.
-/

namespace BuildPanel

namespace Json

/-- Blanks that may stand around tokens. -/
def IsBlank (s : List Char) : Prop :=
  ∀ c ∈ s, c = ' ' ∨ c = '\n' ∨ c = '\t' ∨ c = '\r'

theorem IsBlank.append {s t : List Char} (hs : IsBlank s) (ht : IsBlank t) : IsBlank (s ++ t) := by
  intro c hc
  exact (List.mem_append.1 hc).elim (hs c) (ht c)

/-- A digit of a number in hexadecimal, with a letter of either case. -/
def IsHexDigit (d : Nat) (c : Char) : Prop :=
  d < 16 ∧ (c = d.digitChar ∨ c = d.digitChar.toUpper)

/-- A number in four hexadecimal digits. -/
def SpellsUnit (n : Nat) (s : List Char) : Prop :=
  ∃ a b c d, ∃ a' b' c' d', IsHexDigit a a' ∧ IsHexDigit b b' ∧ IsHexDigit c c' ∧
    IsHexDigit d d' ∧ n = a * 4096 + b * 256 + c * 16 + d ∧ s = [a', b', c', d']

/-- The characters with an escape of their own, and the letters of these. -/
def shortEscapes : List (Char × Char) :=
  [('"', '"'), ('\\', '\\'), ('/', '/'), ('\x08', 'b'), ('\x0c', 'f'), ('\n', 'n'), ('\r', 'r'),
    ('\t', 't')]

/-- The ways to write a character inside quotes. -/
inductive SpellsChar (c : Char) : List Char → Prop where
  | plain (free : ' ' ≤ c) (mark : c ≠ '"') (escape : c ≠ '\\') : SpellsChar c [c]
  | short {letter : Char} (known : (c, letter) ∈ shortEscapes) : SpellsChar c ['\\', letter]
  | unit {s : List Char} (digits : SpellsUnit c.toNat s) : SpellsChar c ('\\' :: 'u' :: s)
  | pair {high low : Nat} {s t : List Char} (leading : 0xd800 ≤ high ∧ high < 0xdc00)
    (trailing : 0xdc00 ≤ low ∧ low < 0xe000)
    (number : c.toNat = 0x10000 + (high - 0xd800) * 0x400 + (low - 0xdc00))
    (first : SpellsUnit high s) (second : SpellsUnit low t) :
    SpellsChar c ('\\' :: 'u' :: s ++ '\\' :: 'u' :: t)

/-- The ways to write a text in quotes. -/
def SpellsText (text s : List Char) : Prop :=
  ∃ parts, List.Forall₂ SpellsChar text parts ∧ s = '"' :: parts.flatten ++ ['"']

def SpellsBool (b : Bool) (s : List Char) : Prop :=
  s = (if b then "true" else "false").toList

/-- A member of an object: its name and the ways to write its value. -/
abbrev Written := List Char × (List Char → Prop)

/-- The ways to write a member of an object. -/
def SpellsMember (m : Written) (s : List Char) : Prop :=
  ∃ before name between after value behind, IsBlank before ∧ SpellsText m.1 name ∧
    IsBlank between ∧ IsBlank after ∧ m.2 value ∧ IsBlank behind ∧
    s = before ++ name ++ between ++ ':' :: after ++ value ++ behind

/-- The ways to write an object with given members in their order. -/
def SpellsObject (members : List Written) (s : List Char) : Prop :=
  ∃ blank parts, IsBlank blank ∧ List.Forall₂ SpellsMember members parts ∧
    s = '\x7b' :: blank ++ [','].intercalate parts ++ ['\x7d']

open Text (encode encodeChar encode_append encode_cons)

variable {α σ : Type} {s : List Char} {rest : Input}

/-! ### Strings are read -/

theorem hexValue?_of_digit {d : Nat} {c : Char} (h : IsHexDigit d c) :
    ∃ b, encodeChar c = [b] ∧ hexValue? b = some d := by
  have lower : ∀ d < 16, encodeChar d.digitChar = [UInt8.ofNat d.digitChar.toNat] ∧
      hexValue? (UInt8.ofNat d.digitChar.toNat) = some d := by decide
  have upper : ∀ d < 16, encodeChar d.digitChar.toUpper = [UInt8.ofNat d.digitChar.toUpper.toNat] ∧
      hexValue? (UInt8.ofNat d.digitChar.toUpper.toNat) = some d := by decide
  obtain ⟨small, rfl | rfl⟩ := h
  · exact ⟨_, lower d small⟩
  · exact ⟨_, upper d small⟩

theorem readUnit_spelled {n : Nat} (h : SpellsUnit n s) (rest : Input) :
    readUnit (encode s ++ rest) = .ok (n, rest) := by
  obtain ⟨a, b, c, d, a', b', c', d', ha, hb, hc, hd, rfl, rfl⟩ := h
  obtain ⟨a'', bytes_a, value_a⟩ := hexValue?_of_digit ha
  obtain ⟨b'', bytes_b, value_b⟩ := hexValue?_of_digit hb
  obtain ⟨c'', bytes_c, value_c⟩ := hexValue?_of_digit hc
  obtain ⟨d'', bytes_d, value_d⟩ := hexValue?_of_digit hd
  have quad : hexQuad? a'' b'' c'' d'' = some (a * 4096 + b * 256 + c * 16 + d) := by
    simp only [hexQuad?, value_a, value_b, value_c, value_d, Option.bind_eq_bind, Option.bind_some,
      Option.pure_def, Option.some.injEq]
    omega
  simp [encode, bytes_a, bytes_b, bytes_c, bytes_d, readUnit, quad]

/-- What stands behind a backslash is read as the character that it stands for. -/
theorem readEscape_spelled {c : Char} (h : SpellsChar c ('\\' :: s)) (rest : Input) :
    readEscape (encode s ++ rest) = .ok (c, rest) := by
  have scalar : c.toNat < 0xd800 ∨ 0xdfff < c.toNat ∧ c.toNat < 0x110000 := c.valid
  have single {letter : Char} (known : (c, letter) ∈ shortEscapes) :
      encodeChar letter = [UInt8.ofNat letter.toNat] ∧
        simpleEscape? (UInt8.ofNat letter.toNat) = some c := by
    have all : ∀ m ∈ shortEscapes, encodeChar m.2 = [UInt8.ofNat m.2.toNat] ∧
        simpleEscape? (UInt8.ofNat m.2.toNat) = some m.1 := by decide +kernel
    exact all _ known
  have letterU : simpleEscape? 117 = none := by decide
  cases h with
  | plain _ _ escape => exact absurd rfl escape
  | short known =>
    obtain ⟨bytes, stands⟩ := single known
    simp [encode, bytes, readEscape, stands]
  | unit digits =>
    have trailing : isTrailing c.toNat = false := by
      simp [isTrailing]
      omega
    have leading : isLeading c.toNat = false := by
      simp [isLeading]
      omega
    have bytes : encodeChar 'u' = [117] := by decide
    simp [encode_cons, bytes, readEscape, letterU, readUnit_spelled digits, trailing, leading,
      Char.ofNat_toNat]
  | @pair high low s t leading trailing number first second =>
    have notTrailing : isTrailing high = false := by
      simp [isTrailing]
      omega
    have isLead : isLeading high = true := by
      simp [isLeading]
      omega
    have isTrail : isTrailing low = true := by
      simp [isTrailing]
      omega
    have both : pairChar high low = c := by
      have sum : (high - 0xd800) * 1024 + (low - 0xdc00) + 0x10000 = c.toNat := by omega
      rw [pairChar, sum, Char.ofNat_toNat]
    have bytes : encodeChar 'u' = [117] ∧ encodeChar '\\' = [92] := by decide
    simp [encode_cons, encode_append, bytes, readEscape, letterU, readUnit_spelled first,
      notTrailing, isLead, readSecondUnit, readUnit_spelled second, isTrail, both]

/-- Bytes that stand for themselves. -/
theorem finishes_plain {bytes : List UInt8} (plain : ∀ b ∈ bytes, b ≠ 34 ∧ b ≠ 92 ∧ ¬ b < 32)
    {met : List UInt8} {text : List UInt8} {r : Input}
    (more : Finishes stringStep (bytes.reverse ++ met) rest text r) :
    Finishes stringStep met (bytes ++ rest) text r := by
  induction bytes generalizing met with
  | nil => exact more
  | cons b bytes ih =>
    obtain ⟨⟨mark, escape, control⟩, others⟩ := List.forall_mem_cons.1 plain
    have taken : stringStep met (b :: (bytes ++ rest)) = .ok (.inl (b :: met), bytes ++ rest) := by
      simp [stringStep, stringNext, mark, escape, control]
    refine .after taken (ih others ?_)
    simpa using more

theorem plain_encodeChar {c : Char} (free : ' ' ≤ c) (mark : c ≠ '"') (escape : c ≠ '\\') :
    ∀ b ∈ encodeChar c, b ≠ 34 ∧ b ≠ 92 ∧ ¬ b < 32 := by
  intro b hb
  simp only [ne_eq, ← UInt8.toNat_inj, UInt8.lt_iff_toNat_lt, UInt8.reduceToNat]
  by_cases low : c.toNat < 0x80
  · rw [Text.encodeChar_of_low low, List.mem_singleton] at hb
    rw [hb, Text.toNat_ofNat (by omega)]
    have above : 32 ≤ c.toNat := free
    have mark' : c.toNat ≠ 34 := fun h => mark (Char.toNat_inj.1 h)
    have escape' : c.toNat ≠ 92 := fun h => escape (Char.toNat_inj.1 h)
    omega
  · have high := Text.high_of_mem_encodeChar (by omega) hb
    omega

/-- One character of a string, as it may be written. -/
theorem finishes_char {c : Char} (h : SpellsChar c s) {met text : List UInt8} {r : Input}
    (more : Finishes stringStep ((encodeChar c).reverse ++ met) rest text r) :
    Finishes stringStep met (encode s ++ rest) text r := by
  have escaped {t : List Char} (h : SpellsChar c ('\\' :: t)) :
      Finishes stringStep met (encode ('\\' :: t) ++ rest) text r := by
    have bytes : encodeChar '\\' = [92] := by decide
    refine .after ?_ more
    simp [encode_cons, bytes, stringStep, stringNext, readEscape_spelled h, Except.map]
  cases h with
  | plain free mark escape =>
    have bytes : encode [c] = encodeChar c := by simp [encode]
    rw [bytes]
    exact finishes_plain (plain_encodeChar free mark escape) more
  | short known => exact escaped (.short known)
  | unit digits => exact escaped (.unit digits)
  | pair leading trailing number first second =>
    exact escaped (.pair leading trailing number first second)

theorem readString_spelled {text : List Char} {parts : List (List Char)}
    (h : List.Forall₂ SpellsChar text parts) (rest : Input) :
    readString (encode (parts.flatten ++ ['"']) ++ rest) = .ok (text, rest) := by
  have finishes : ∀ met, Finishes stringStep met (encode parts.flatten ++ 34 :: rest)
      (met.reverse ++ encode text) rest := by
    induction h with
    | nil =>
      intro met
      refine .last ?_
      simp [stringStep, stringNext, encode]
    | @cons c _ _ _ first _ ih =>
      intro met
      rw [List.flatten_cons, encode_append, List.append_assoc]
      refine finishes_char first ?_
      have more := ih ((encodeChar c).reverse ++ met)
      rw [List.reverse_append, List.reverse_reverse, List.append_assoc, ← encode_cons] at more
      exact more
  have bytes := Eager.steps_of_finishes eager_stringStep (.before .endInString) (finishes [])
  have closed : encode (parts.flatten ++ ['"']) ++ rest = encode parts.flatten ++ 34 :: rest := by
    rw [encode_append, List.append_assoc]
    rfl
  rw [← stringBytes_eq] at bytes
  rw [closed]
  simp [readString, bytes, Text.decode?_encode]

/-! ### Values are read -/

/-- A reader finds a value wherever it is written, behind blanks and in front of anything. -/
def Reads (read : Reader α) (value : α) (written : List Char → Prop) : Prop :=
  ∀ blank s rest, IsBlank blank → written s →
    read (encode (blank ++ s) ++ rest) = .ok (value, rest)

theorem skipSpace_blank {blank : List Char} (free : IsBlank blank) (rest : Input) :
    skipSpace (encode blank ++ rest) = skipSpace rest := by
  refine List.dropWhile_append_of_pos ?_
  have all : (encode [' ', '\n', '\t', '\r']).all isSpace = true := by decide
  intro b hb
  obtain ⟨c, hc, hb⟩ := List.mem_flatMap.1 hb
  refine List.all_eq_true.1 all b (List.mem_flatMap.2 ⟨c, ?_, hb⟩)
  simpa using free c hc

/-- What comes behind blanks. -/
theorem skipSpace_token {blank : List Char} {c : Char} {b : UInt8} (free : IsBlank blank)
    (byte : encodeChar c = [b]) (token : isSpace b = false) (s : List Char) (rest : Input) :
    skipSpace (encode (blank ++ c :: s) ++ rest) = b :: (encode s ++ rest) := by
  rw [encode_append, encode_cons, byte, List.append_assoc, skipSpace_blank free]
  exact List.dropWhile_cons_of_neg (by simp [token])

theorem reads_text (text : String) : Reads readText text (SpellsText text.toList) := by
  rintro blank _ rest free ⟨parts, spelled, rfl⟩
  have opened := skipSpace_token free (show encodeChar '"' = [34] by decide) rfl
    (parts.flatten ++ ['"']) rest
  unfold readText
  rw [List.cons_append, opened]
  simp [readString_spelled spelled, Except.map]

theorem reads_bool (b : Bool) : Reads readBool b (SpellsBool b) := by
  rintro blank _ rest free rfl
  cases b with
  | true =>
    have opened := skipSpace_token free (show encodeChar 't' = [116] by decide) rfl
      ['r', 'u', 'e'] rest
    have word : readWord afterT (encode ['r', 'u', 'e'] ++ rest) = .ok rest :=
      readWord_eq_ok.2 rfl
    simp [readBool, opened, word, Except.map]
  | false =>
    have opened := skipSpace_token free (show encodeChar 'f' = [102] by decide) rfl
      ['a', 'l', 's', 'e'] rest
    have word : readWord afterF (encode ['a', 'l', 's', 'e'] ++ rest) = .ok rest :=
      readWord_eq_ok.2 rfl
    simp [readBool, opened, word, Except.map]

/-! ### Objects are read -/

theorem readMember_written {read : Reader α} {value : α} {written : List Char → Prop}
    (h : Reads read value written) (name : List Char) {between after s : List Char}
    (free : IsBlank between) (free' : IsBlank after) (spelled : written s) (rest : Input) :
    readMember name read (encode (between ++ ':' :: after ++ s) ++ rest) = .ok (value, rest) := by
  have colon := skipSpace_token free (show encodeChar ':' = [58] by decide) rfl (after ++ s) rest
  have behind := h after s rest free' spelled
  simp only [readMember, readColon, List.append_assoc, List.cons_append, colon]
  simp only [behind]

/-- A member takes one state to the next, however it is written. -/
def Takes (next : σ → List Char → Reader σ) (x : σ) (m : Written) (x' : σ) : Prop :=
  ∀ between after s rest, IsBlank between → IsBlank after → m.2 s →
    next x m.1 (encode (between ++ ':' :: after ++ s) ++ rest) = .ok (x', rest)

/-- Members take one state to another, one after the other. -/
inductive TakesAll (next : σ → List Char → Reader σ) : σ → List Written → σ → Prop where
  | nil (x : σ) : TakesAll next x [] x
  | cons {x x' x'' : σ} {m : Written} {ms : List Written} (first : Takes next x m x')
    (rest : TakesAll next x' ms x'') : TakesAll next x (m :: ms) x''

section Members

variable {next : σ → List Char → Reader σ} {x x' : σ} {m : Written} {ms : List Written}
  {parts : List (List Char)} {blank : List Char}

theorem readMemberName_end (free : IsBlank blank) (first : Bool) (rest : Input) :
    readMemberName first (encode blank ++ 125 :: rest) = .ok (none, 125 :: rest) := by
  have brace := skipSpace_token free (show encodeChar '\x7d' = [125] by decide) rfl [] rest
  rw [encode_append, List.append_assoc] at brace
  refine readMemberName_eq_ok.2 ?_
  rw [show encode blank ++ 125 :: rest = encode blank ++ (encode ['\x7d'] ++ rest) from rfl, brace]
  rfl

/-- The first name of an object. -/
theorem readMemberName_first {before name text : List Char} (free : IsBlank before)
    (spelled : SpellsText text name) (rest : Input) :
    readMemberName true (encode (before ++ name) ++ rest) = .ok (some text, rest) := by
  obtain ⟨parts, spelled, rfl⟩ := spelled
  have mark := skipSpace_token free (show encodeChar '"' = [34] by decide) rfl
    (parts.flatten ++ ['"']) rest
  refine readMemberName_eq_ok.2 ?_
  rw [List.cons_append, mark]
  simp [readNameHere, readNameBehind, readString_spelled spelled, Except.map]

/-- A further name, behind a comma. -/
theorem readMemberName_further {before name text : List Char} (free' : IsBlank blank)
    (free : IsBlank before) (spelled : SpellsText text name) (rest : Input) :
    readMemberName false (encode (blank ++ ',' :: (before ++ name)) ++ rest) =
      .ok (some text, rest) := by
  obtain ⟨parts, spelled, rfl⟩ := spelled
  have comma := skipSpace_token free' (show encodeChar ',' = [44] by decide) rfl
    (before ++ '"' :: parts.flatten ++ ['"']) rest
  have mark := skipSpace_token free (show encodeChar '"' = [34] by decide) rfl
    (parts.flatten ++ ['"']) rest
  refine readMemberName_eq_ok.2 ?_
  simp only [List.append_assoc, List.cons_append] at comma mark ⊢
  rw [comma]
  simp [readNameHere, readNameBehind, mark, readString_spelled spelled, Except.map]

/-- One step through the members of an object, from one member to the blanks behind it. -/
theorem memberStep_written (takes : Takes next x m x') (spelled : SpellsMember m s) :
    ∃ behind, IsBlank behind ∧ ∀ blank rest, IsBlank blank →
      memberStep next (true, x) (encode (blank ++ s) ++ rest) =
        .ok (.inl (false, x'), encode behind ++ rest) ∧
      memberStep next (false, x) (encode (blank ++ ',' :: s) ++ rest) =
        .ok (.inl (false, x'), encode behind ++ rest) := by
  obtain ⟨before, name, between, after, value, behind, free, named, free', free'', written, free₃,
    rfl⟩ := spelled
  refine ⟨behind, free₃, ?_⟩
  intro blank rest free₀
  have value_ := takes between after value (encode behind ++ rest) free' free'' written
  constructor
  · have name_ := readMemberName_first (free₀.append free) named
      (encode (between ++ ':' :: after ++ value) ++ (encode behind ++ rest))
    simp only [encode_append, encode_cons, List.append_assoc, List.cons_append] at name_ value_ ⊢
    simp only [memberStep, name_, memberBehind, value_, Except.map]
  · have name_ := readMemberName_further free₀ free named
      (encode (between ++ ':' :: after ++ value) ++ (encode behind ++ rest))
    simp only [encode_append, encode_cons, List.append_assoc, List.cons_append] at name_ value_ ⊢
    simp only [memberStep, name_, memberBehind, value_, Except.map]

theorem memberStep_end (free : IsBlank blank) (first : Bool) (rest : Input) :
    memberStep next (first, x) (encode blank ++ 125 :: rest) = .ok (.inr x, 125 :: rest) := by
  simp only [memberStep, readMemberName_end free, memberBehind]

/-- The members of an object behind the first one, up to the brace. -/
theorem finishes_members (takes : TakesAll next x ms x')
    (spelled : List.Forall₂ SpellsMember ms parts) (free : IsBlank blank) (rest : Input) :
    Finishes (memberStep next) (false, x)
      (encode (blank ++ parts.flatMap (',' :: ·)) ++ 125 :: rest) x' (125 :: rest) := by
  induction takes generalizing parts blank with
  | nil x =>
    cases spelled
    refine .last ?_
    simpa using memberStep_end free false rest
  | cons takes _ ih =>
    cases spelled with
    | @cons _ part _ parts first others =>
      obtain ⟨behind, free', steps⟩ := memberStep_written takes first
      have taken := (steps blank (encode (parts.flatMap (',' :: ·)) ++ 125 :: rest) free).2
      have more := ih others free'
      simp only [List.flatMap_cons, encode_append, List.append_assoc] at taken more ⊢
      exact .after taken more

theorem intercalate_comma (part : List Char) (parts : List (List Char)) :
    [','].intercalate (part :: parts) = part ++ parts.flatMap (',' :: ·) := by
  induction parts generalizing part with
  | nil => simp
  | cons part' parts ih => rw [List.intercalate_cons_cons, ih]; simp

theorem finishes_object (takes : TakesAll next x ms x')
    (spelled : List.Forall₂ SpellsMember ms parts) (free : IsBlank blank) (rest : Input) :
    Finishes (memberStep next) (true, x)
      (encode (blank ++ [','].intercalate parts) ++ 125 :: rest) x' (125 :: rest) := by
  cases takes with
  | nil =>
    cases spelled
    refine .last ?_
    simpa using memberStep_end free true rest
  | cons takes others =>
    cases spelled with
    | @cons _ part _ parts first spelled =>
      obtain ⟨behind, free', steps⟩ := memberStep_written takes first
      have taken := (steps blank (encode (parts.flatMap (',' :: ·)) ++ 125 :: rest) free).1
      have more := finishes_members others spelled free' rest
      simp only [intercalate_comma, encode_append, List.append_assoc] at taken more ⊢
      exact .after taken more

/-- What is read behind the brace that opens an object. -/
theorem object_written (near : ∀ x name, Local (next x name)) (takes : TakesAll next x ms x')
    (spelled : SpellsObject ms s) (free : IsBlank blank) (few : Input → Failure) (rest : Input) :
    ∃ inner, skipSpace (encode (blank ++ s) ++ rest) = 123 :: inner ∧
      steps (memberStep next) few (0 :: inner) (true, x) inner = .ok (x', 125 :: rest) := by
  obtain ⟨blank', parts, free', members, rfl⟩ := spelled
  have brace := skipSpace_token free (show encodeChar '\x7b' = [123] by decide) rfl
    (blank' ++ [','].intercalate parts ++ ['\x7d']) rest
  have closed : encode (blank' ++ [','].intercalate parts ++ ['\x7d']) ++ rest =
      encode (blank' ++ [','].intercalate parts) ++ 125 :: rest := by
    rw [encode_append, List.append_assoc]
    rfl
  refine ⟨_, brace, ?_⟩
  rw [closed]
  exact Local.steps_of_finishes (local_memberStep near) (memberStep_goes near) few 0
    (finishes_object takes members free' rest)

end Members

section Record

variable {β : Type} {a : Member α} {b : Member β} {x : α} {y : β} {written : List Char → Prop}

theorem takes_first (h : Reads a.read x written) (y : Option β) :
    Takes (fun found => recordNext a b found.1 found.2) (none, y) (a.name.toList, written)
      (some x, y) := by
  intro between after s rest free free' spelled
  have value := readMember_written h a.name.toList free free' spelled rest
  dsimp only [recordNext]
  rw [if_pos rfl, if_neg (by simp), value]
  rfl

theorem takes_second (distinct : a.name ≠ b.name) (h : Reads b.read y written) (x : Option α) :
    Takes (fun found => recordNext a b found.1 found.2) (x, none) (b.name.toList, written)
      (x, some y) := by
  have other : b.name.toList ≠ a.name.toList := fun same =>
    distinct (String.toList_injective same.symm)
  intro between after s rest free free' spelled
  have value := readMember_written h b.name.toList free free' spelled rest
  dsimp only [recordNext]
  rw [if_neg other, if_pos rfl, if_neg (by simp), value]
  rfl

/-- A record of two members is read in either order of these. -/
theorem reads_record {written' : List Char → Prop} (type : String) (distinct : a.name ≠ b.name)
    (near : Local a.read) (near' : Local b.read) (hx : Reads a.read x written)
    (hy : Reads b.read y written') :
    Reads (readRecord type a b) (x, y) fun s =>
      SpellsObject [(a.name.toList, written), (b.name.toList, written')] s ∨
        SpellsObject [(b.name.toList, written'), (a.name.toList, written)] s := by
  have object {members : List Written} {s : List Char} (spelled : SpellsObject members s)
      (takes : TakesAll (fun found => recordNext a b found.1 found.2) (none, none) members
        (some x, some y)) (blank : List Char) (rest : Input) (free : IsBlank blank) :
      readRecord type a b (encode (blank ++ s) ++ rest) = .ok ((x, y), rest) := by
    obtain ⟨inner, brace, members⟩ := object_written
      (fun found => local_recordNext near near' found.1 found.2) takes spelled free
      (.before .endInObject) rest
    simp [readRecord, brace, recordObject, recordMembers_eq, members]
  rintro blank s rest free (spelled | spelled)
  · exact object spelled (.cons (takes_first hx none)
      (.cons (takes_second distinct hy (some x)) (.nil _))) blank rest free
  · exact object spelled (.cons (takes_second distinct hy none)
      (.cons (takes_first hx (some y)) (.nil _))) blank rest free

/-- A record whose second member may be absent is read without it. -/
theorem reads_record_first (type : String) (near : Local a.read) (near' : Local b.read)
    (hx : Reads a.read x written) (absent : b.absent = some y) :
    Reads (readRecord type a b) (x, y) (SpellsObject [(a.name.toList, written)]) := by
  intro blank s rest free spelled
  have takes : TakesAll (fun found => recordNext a b found.1 found.2) (none, none)
      [(a.name.toList, written)] (some x, none) := .cons (takes_first hx none) (.nil _)
  obtain ⟨inner, brace, members⟩ := object_written
    (fun found => local_recordNext near near' found.1 found.2) takes spelled free
    (.before .endInObject) rest
  simp [readRecord, brace, recordObject, recordMembers_eq, members, absent]

end Record

/-- An object of any names is read member by member. -/
theorem reads_map {read : Reader α} (near : Local read) (add : σ → String → α → σ) (start : σ)
    (written : α → List Char → Prop) {members : List (String × α)}
    (h : ∀ m ∈ members, Reads read m.2 (written m.2)) :
    Reads (readMap read add start) (members.foldl (fun acc m => add acc m.1 m.2) start)
      (SpellsObject (members.map fun m => (m.1.toList, written m.2))) := by
  have takes : TakesAll (mapNext read add) start
      (members.map fun m => (m.1.toList, written m.2))
      (members.foldl (fun acc m => add acc m.1 m.2) start) := by
    induction members generalizing start with
    | nil => exact .nil start
    | cons m members ih =>
      obtain ⟨first, others⟩ := List.forall_mem_cons.1 h
      refine .cons ?_ (ih (add start m.1 m.2) others)
      intro between after s rest free free' spelled
      have value := readMember_written first m.1.toList free free' spelled rest
      simp only [mapNext, value, Except.map, String.ofList_toList]
  intro blank s rest free spelled
  obtain ⟨inner, brace, members⟩ := object_written (local_mapNext near add) takes spelled free
    (.before .endInObject) rest
  simp [readMap, brace, foldMembers_eq, members, Except.map]

/-! ### Values that make up a text -/

theorem readWhole_of_reads {read : Reader α} {value : α} {written : List Char → Prop}
    (h : Reads read value written) (spelled : written s) :
    readWhole read (encode s) = .ok value := by
  refine readWhole_eq_ok.2 ⟨[], ?_, rfl⟩
  have found := h [] s [] nofun spelled
  rwa [List.append_nil] at found

end Json

end BuildPanel
