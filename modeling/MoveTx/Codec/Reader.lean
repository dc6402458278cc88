import MoveTx.Codec.Error

/-!
# Reading values from bytes

A reader takes a value off the front of a byte string. Whether it succeeds or fails, it leaves the
bytes it has not looked at, so that the place of a failure is known.
-/

namespace MoveTx

/-- A computation that takes bytes off the front of its input. -/
abbrev Reader (α : Type) := EStateM CodecError Bytes α

/-- The longest sequence that is ever read. -/
def maxSequenceLength : Nat := 2147483647

namespace Reader

/-- The value read from the whole of `bs`, or the failure. -/
def result {α : Type} (r : Reader α) (bs : Bytes) : Except CodecError α :=
  match r.run bs with
  | .ok a _ => .ok a
  | .error e _ => .error e

/-- Takes `n` bytes, or nothing when fewer are left. -/
def take (n : Nat) : Reader Bytes := do
  let bs ← get
  if hasAtLeast n bs then
    set (bs.drop n)
    return bs.take n
  else throw (.tooShort n bs.length)

/-- Fails unless every byte has been taken. -/
def finish : Reader Unit := do
  match ← get with
  | [] => return ()
  | bs => throw (.tooLong bs.length)

def byte : Reader UInt8 := do
  match ← get with
  | [] => throw (.tooShort 1 0)
  | b :: rest =>
    set rest
    return b

/-- A number of `width` bytes, least significant first. -/
def littleEndian (width : Nat) : Reader Nat :=
  ofLittleEndian <$> take width

/-- Takes `n` bytes as a string of that length. -/
def fixed (n : Nat) : Reader (FixedBytes n) := do
  let bs ← take n
  match FixedBytes.ofBytes? n bs with
  | some b => return b
  | none => throw (.tooShort n bs.length)

def bool : Reader Bool := do
  match ← byte with
  | 0 => return false
  | 1 => return true
  | b => throw (.invalidBool b)

/-! ### Variable-length integers -/

/-- An integer of which some groups have been read: the word they make up, and the place of the next group
in it. -/
structure Groups where
  word : UInt64
  shift : Nat

namespace Groups

/-- No group has been read. -/
def start : Groups := ⟨0, 0⟩

/-- Puts the group of one more byte into the word, which is done unless the top bit of the byte is set. The
last group for which there is room holds one bit, and only the first may be zero at the end. -/
def step (g : Groups) (b : UInt8) : Except CodecError (UInt64 ⊕ Groups) :=
  let digit := (b &&& 0x7f).toUInt64
  if g.shift = 63 ∧ 1 < digit then .error (.varIntOverflow 64)
  else
    let word := g.word ||| digit <<< UInt64.ofNat g.shift
    if b &&& 0x80 = 0 then
      if 0 < g.shift ∧ digit = 0 then .error .nonMinimalLength else .ok (.inl word)
    else if 63 < g.shift + 7 then .error .unterminatedVarInt
    else .ok (.inr ⟨word, g.shift + 7⟩)

end Groups

/-- Reads the rest of an integer byte by byte. -/
def ulebFrom (g : Groups) : Reader UInt64
  | [] => .error .unterminatedVarInt []
  | b :: rest =>
    match g.step b with
    | .error e => .error e rest
    | .ok (.inl n) => .ok n rest
    | .ok (.inr more) => ulebFrom more rest

/-- An integer below `2 ^ 64` in groups of seven bits, least significant first. -/
def uleb : Reader Nat :=
  UInt64.toNat <$> ulebFrom .start

/-- The length of a sequence. -/
def length : Reader Nat := do
  let n ← uleb
  if n > maxSequenceLength then throw (.lengthOverflow n) else return n

/-- The tag of a variant. -/
def variant : Reader Nat := do
  let n ← uleb
  if n < UInt32.size then return n else throw (.varIntOverflow 32)

/-! ### Sequences -/

/-- Bytes after their count. -/
def bytes : Reader Bytes := do
  let n ← length
  take n

/-- UTF-8 text after its count of bytes. -/
def string : Reader String := do
  match textOfBytes? (← bytes) with
  | some s => return s
  | none => throw .invalidUtf8

/-- Reads `n` values, one after the other. -/
def times {ε α : Type} (r : EStateM ε Bytes α) : (n : Nat) → EStateM ε Bytes (List α)
  | 0 => return []
  | n + 1 => do
    let a ← r
    let rest ← times r n
    return a :: rest

/-- Values after their count. -/
def list {α : Type} (r : Reader α) : Reader (List α) := do
  let n ← length
  times r n

/-- A byte that says whether a value follows. -/
def option {α : Type} (r : Reader α) : Reader (Option α) := do
  match ← byte with
  | 0 => return none
  | 1 => some <$> r
  | tag => throw (.invalidTag "Option" tag.toNat)

end Reader

end MoveTx
