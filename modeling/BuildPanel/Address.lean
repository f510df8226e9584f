/-!
IP addresses and socket addresses as text. An IPv4 address is four decimal bytes without leading
zeros. An IPv6 address is eight hexadecimal groups, of which one run may be left out as `::` and of
which the last two may be written as an IPv4 address; in a socket address it stands in brackets,
with an optional scope. Printing gives one canonical spelling.
-/

namespace BuildPanel

inductive IpAddress where
  | v4 (a b c d : UInt8)
  /-- Eight groups, and the scope if there is one (zero means none). -/
  | v6 (groups : Vector UInt16 8) (scope : UInt32)
  deriving DecidableEq

structure SocketAddress where
  ip : IpAddress
  port : UInt16
  deriving DecidableEq

namespace Address

/-- A reader gives the value that a text begins with and the rest of the text. -/
abbrev Reader (α : Type) := List Char → Option (α × List Char)

/-- The value of a digit in a base of at most sixteen. -/
def digit? (base : Nat) (c : Char) : Option Nat :=
  let value? :=
    if '0' ≤ c ∧ c ≤ '9' then some (c.toNat - '0'.toNat)
    else if 'a' ≤ c ∧ c ≤ 'f' then some (c.toNat - 'a'.toNat + 10)
    else if 'A' ≤ c ∧ c ≤ 'F' then some (c.toNat - 'A'.toNat + 10)
    else none
  value?.filter (· < base)

/-- The number that digits stand for. -/
def valueOf (base : Nat) (digits : List Char) : Nat :=
  digits.foldl (fun n c => n * base + (digit? base c).getD 0) 0

/-- A number of at most so many digits that is below a bound. -/
def number (base : Nat) (longest : Option Nat) (leadingZeros : Bool) (bound : Nat) : Reader Nat :=
  fun s =>
    let digits := s.takeWhile fun c => (digit? base c).isSome
    let value := valueOf base digits
    if digits = [] ∨ longest.any (· < digits.length) ∨ bound ≤ value then none
    else if !leadingZeros && digits.head? = some '0' && digits.length ≠ 1 then none
    else some (value, s.drop digits.length)

def char (c : Char) : Reader Unit
  | d :: s => if d = c then some ((), s) else none
  | [] => none

def byte : Reader UInt8 := fun s => do
  let (n, s) ← number 10 (some 3) false 256 s
  return (UInt8.ofNat n, s)

def bytes : Reader (UInt8 × UInt8 × UInt8 × UInt8) := fun s => do
  let (a, s) ← byte s
  let ((), s) ← char '.' s
  let (b, s) ← byte s
  let ((), s) ← char '.' s
  let (c, s) ← byte s
  let ((), s) ← char '.' s
  let (d, s) ← byte s
  return ((a, b, c, d), s)

/-- A group made of two bytes. -/
def pair (high low : UInt8) : UInt16 :=
  UInt16.ofNat (high.toNat * 256 + low.toNat)

def group : Reader UInt16 := fun s => do
  let (n, s) ← number 16 (some 4) true 65536 s
  return (UInt16.ofNat n, s)

/-- A reader preceded by a colon, except at the start. -/
def afterColon {α : Type} (first : Bool) (read : Reader α) : Reader α := fun s =>
  if first then read s
  else do
    let ((), s) ← char ':' s
    read s

/-- At most `room` groups with colons between them, as many as there are; the last two may be an
IPv4 address. Tells whether they were. -/
def groups (first : Bool) : (room : Nat) → List Char → List UInt16 × Bool × List Char
  | 0, s => ([], false, s)
  | room + 1, s =>
    match if room = 0 then none else afterColon first bytes s with
    | some ((a, b, c, d), s) => ([pair a b, pair c d], true, s)
    | none =>
      match afterColon first group s with
      | none => ([], false, s)
      | some (g, s) =>
        let (rest, embedded, s) := groups false room s
        (g :: rest, embedded, s)

/-- The groups of an IPv6 address. Two colons stand for at least one group of zero. -/
def eightGroups : Reader (Vector UInt16 8) := fun s => do
  let (front, embedded, s) := groups true 8 s
  if h : front.length = 8 then return (⟨front.toArray, by simp [h]⟩, s)
  if embedded then none
  let ((), s) ← char ':' s
  let ((), s) ← char ':' s
  let (back, _, s) := groups true (7 - front.length) s
  let all := front ++ List.replicate (8 - front.length - back.length) 0 ++ back
  if h : all.length = 8 then return (⟨all.toArray, by simp [h]⟩, s) else none

def port : Reader UInt16 := fun s => do
  let ((), s) ← char ':' s
  let (n, s) ← number 10 none true 65536 s
  return (UInt16.ofNat n, s)

/-- The scope of an IPv6 address; zero if there is none. -/
def scope : List Char → UInt32 × List Char := fun s =>
  let read := do
    let ((), s) ← char '%' s
    number 10 none true 4294967296 s
  match read with
  | some (n, s) => (UInt32.ofNat n, s)
  | none => (0, s)

def socketV4 : Reader SocketAddress := fun s => do
  let ((a, b, c, d), s) ← bytes s
  let (p, s) ← port s
  return (⟨.v4 a b c d, p⟩, s)

def socketV6 : Reader SocketAddress := fun s => do
  let ((), s) ← char '[' s
  let (gs, s) ← eightGroups s
  let (id, s) := scope s
  let ((), s) ← char ']' s
  let (p, s) ← port s
  return (⟨.v6 gs id, p⟩, s)

/-- The groups in base sixteen, with colons between them. -/
def showGroups (gs : List UInt16) : String :=
  ":".intercalate (gs.map fun g => String.ofList (Nat.toDigits 16 g.toNat))

/-- Where the longest run of zeros starts and how long it is; of runs of one length the first. -/
def longestZeros (gs : List UInt16) : Nat × Nat :=
  let runs := (List.range gs.length).map fun i => (i, ((gs.drop i).takeWhile (· = 0)).length)
  runs.foldl (fun best run => if best.2 < run.2 then run else best) (0, 0)

def showBytes (a b c d : Nat) : String :=
  ".".intercalate ([a, b, c, d].map toString)

/-- The canonical spelling of an IPv6 address: lower case, no leading zeros, `::` for the longest
run of two or more zeros; an embedded IPv4 address is written as one. -/
def showV6 (gs : List UInt16) : String :=
  match gs with
  | [0, 0, 0, 0, 0, 0xffff, x, y] =>
    "::ffff:" ++ showBytes (x.toNat / 256) (x.toNat % 256) (y.toNat / 256) (y.toNat % 256)
  | _ =>
    let (start, length) := longestZeros gs
    if length < 2 then showGroups gs
    else showGroups (gs.take start) ++ "::" ++ showGroups (gs.drop (start + length))

end Address

namespace SocketAddress

def ofString? (s : String) : Option SocketAddress :=
  let read := fun s => (Address.socketV4 s).orElse fun () => Address.socketV6 s
  match read s.toList with
  | some (address, []) => some address
  | _ => none

def toText (a : SocketAddress) : String :=
  let ip :=
    match a.ip with
    | .v4 b₁ b₂ b₃ b₄ => Address.showBytes b₁.toNat b₂.toNat b₃.toNat b₄.toNat
    | .v6 groups 0 => "[" ++ Address.showV6 groups.toList ++ "]"
    | .v6 groups scope => "[" ++ Address.showV6 groups.toList ++ "%" ++ toString scope.toNat ++ "]"
  ip ++ ":" ++ toString a.port.toNat

end SocketAddress

end BuildPanel
