/-!
UTF-8. Bytes are read one sequence at a time: a sequence is either the encoding of a character or
the longest start of an encoding that does not go on as it should. Strict decoding refuses the
second kind, lossy decoding writes U+FFFD for each.
-/

namespace BuildPanel.Text

/-- A continuation byte whose six bits follow. -/
def continuation (n : Nat) : UInt8 :=
  UInt8.ofNat (0x80 + n % 64)

def encodeChar (c : Char) : List UInt8 :=
  let n := c.toNat
  if n < 0x80 then
    [UInt8.ofNat n]
  else if n < 0x800 then
    [UInt8.ofNat (0xc0 + n / 64), continuation n]
  else if n < 0x10000 then
    [UInt8.ofNat (0xe0 + n / 4096), continuation (n / 64), continuation n]
  else
    [UInt8.ofNat (0xf0 + n / 262144), continuation (n / 4096), continuation (n / 64),
      continuation n]

def encode (text : List Char) : List UInt8 :=
  text.flatMap encodeChar

def bytes (s : String) : List UInt8 :=
  encode s.toList

def within (low high : Nat) (b : UInt8) : Bool :=
  low ≤ b.toNat && b.toNat ≤ high

/-- The second bytes that may follow a lead byte, so that no character is encoded in more bytes than
it needs, no surrogate is encoded and nothing lies above U+10FFFF. -/
def secondBounds (lead : UInt8) : Nat × Nat :=
  if lead = 0xe0 then (0xa0, 0xbf)
  else if lead = 0xed then (0x80, 0x9f)
  else if lead = 0xf0 then (0x90, 0xbf)
  else if lead = 0xf4 then (0x80, 0x8f)
  else (0x80, 0xbf)

/-- Whether a byte may stand second after a lead byte. -/
def isSecond (lead b : UInt8) : Bool :=
  within (secondBounds lead).1 (secondBounds lead).2 b

def isContinuation (b : UInt8) : Bool :=
  within 0x80 0xbf b

def bits (b : UInt8) : Nat :=
  b.toNat % 64

/-- What a byte sequence starts with, and the bytes after it: a character, or `none` for the longest
start of an encoding that is broken off. -/
def sequence : UInt8 → List UInt8 → Option Char × List UInt8
  | a, rest =>
    if a.toNat < 0x80 then (some (Char.ofNat a.toNat), rest)
    else if within 0xc2 0xdf a then
      match rest with
      | b :: rest' =>
        if isContinuation b then (some (Char.ofNat ((a.toNat - 0xc0) * 64 + bits b)), rest')
        else (none, rest)
      | [] => (none, [])
    else if within 0xe0 0xef a then
      match rest with
      | b :: c :: rest' =>
        if !isSecond a b then (none, rest)
        else if !isContinuation c then (none, c :: rest')
        else (some (Char.ofNat ((a.toNat - 0xe0) * 4096 + bits b * 64 + bits c)), rest')
      | [b] => if isSecond a b then (none, []) else (none, rest)
      | [] => (none, [])
    else if within 0xf0 0xf4 a then
      match rest with
      | b :: c :: d :: rest' =>
        if !isSecond a b then (none, rest)
        else if !isContinuation c then (none, c :: d :: rest')
        else if !isContinuation d then (none, d :: rest')
        else
          (some (Char.ofNat
            ((a.toNat - 0xf0) * 262144 + bits b * 4096 + bits c * 64 + bits d)), rest')
      | [b, c] =>
        if !isSecond a b then (none, rest)
        else if !isContinuation c then (none, [c])
        else (none, [])
      | [b] => if isSecond a b then (none, []) else (none, rest)
      | [] => (none, [])
    else (none, rest)

theorem length_sequence_le (a : UInt8) (rest : List UInt8) :
    (sequence a rest).2.length ≤ rest.length := by
  unfold sequence
  repeat' split
  all_goals simp
  all_goals omega

/-- The sequences of a byte string, after those that were met before, which stand in reverse. -/
def sequencesAfter (met : List (Option Char)) : List UInt8 → List (Option Char)
  | [] => met.reverse
  | a :: rest => sequencesAfter ((sequence a rest).1 :: met) (sequence a rest).2
termination_by s => s.length
decreasing_by
  have := length_sequence_le a rest
  simp
  omega

/-- The sequences of a byte string: characters, and `none` for each broken one. -/
def sequences (s : List UInt8) : List (Option Char) :=
  sequencesAfter [] s

theorem sequencesAfter_append (met base : List (Option Char)) (s : List UInt8) :
    sequencesAfter (met ++ base) s = base.reverse ++ sequencesAfter met s := by
  fun_induction sequencesAfter met s with
  | case1 met => simp [sequencesAfter]
  | case2 met a rest ih => rw [sequencesAfter]; exact ih

@[simp]
theorem sequences_nil : sequences [] = [] := by
  simp [sequences, sequencesAfter]

theorem sequences_cons (a : UInt8) (rest : List UInt8) :
    sequences (a :: rest) = (sequence a rest).1 :: sequences (sequence a rest).2 := by
  have h := sequencesAfter_append [] [(sequence a rest).1] (sequence a rest).2
  rw [sequences, sequencesAfter]
  simpa [sequences] using h

/-- The bytes from the first broken sequence on. -/
def broken : List UInt8 → List UInt8
  | [] => []
  | a :: rest =>
    match (sequence a rest).1 with
    | some _ => broken (sequence a rest).2
    | none => a :: rest
termination_by s => s.length
decreasing_by
  have := length_sequence_le a rest
  simp
  omega

def decode? (s : List UInt8) : Option (List Char) :=
  (sequences s).mapM id

/-- The text of any byte string: U+FFFD stands for every broken sequence. -/
def decodeLossy (s : List UInt8) : List Char :=
  (sequences s).map fun c => c.getD '\uFFFD'

end BuildPanel.Text
