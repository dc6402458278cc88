/-!
# Byte strings

Byte strings are lists of bytes. `littleEndian` and `bigEndian` write a number in a fixed count of
bytes and `ofLittleEndian` and `ofBigEndian` read it back. `FixedBytes` is a string of known
length, such as the 32 bytes of every address, digest and hash.
-/

namespace MoveTx

abbrev Bytes := List UInt8

/-- The low `8 * width` bits of `n`, least significant byte first. -/
def littleEndian : (width : Nat) → (n : Nat) → Bytes
  | 0, _ => []
  | width + 1, n => UInt8.ofNat n :: littleEndian width (n / 256)

/-- The number whose least significant byte comes first. -/
def ofLittleEndian : Bytes → Nat
  | [] => 0
  | b :: bs => b.toNat + 256 * ofLittleEndian bs

/-- The low `8 * width` bits of `n`, most significant byte first. -/
def bigEndian (width n : Nat) : Bytes :=
  (littleEndian width n).reverse

/-- The number whose most significant byte comes first. -/
def ofBigEndian (bs : Bytes) : Nat :=
  bs.foldl (fun n b => 256 * n + b.toNat) 0

/-- The UTF-8 bytes of a text. -/
def textBytes (s : String) : Bytes :=
  s.toUTF8.toList

/-- The text that `bs` is the UTF-8 form of, if it is one. -/
def textOfBytes? (bs : Bytes) : Option String :=
  String.fromUTF8? bs.toByteArray

/-- Whether `bs` holds `n` bytes or more. Looks at no more than the first `n`. -/
def hasAtLeast : (n : Nat) → (bs : Bytes) → Bool
  | 0, _ => true
  | _ + 1, [] => false
  | n + 1, _ :: bs => hasAtLeast n bs

/-- Whether `xs` comes before `ys` in byte order, a proper beginning first. -/
def bytesBefore : (xs ys : Bytes) → Bool
  | [], [] => false
  | [], _ :: _ => true
  | _ :: _, [] => false
  | x :: xs, y :: ys => x < y || (x == y && bytesBefore xs ys)

theorem length_littleEndian (width n : Nat) : (littleEndian width n).length = width := by
  induction width generalizing n with
  | zero => rfl
  | succ width ih => simp [littleEndian, ih]

theorem length_bigEndian (width n : Nat) : (bigEndian width n).length = width := by
  simp [bigEndian, length_littleEndian]

theorem hasAtLeast_iff {n : Nat} {bs : Bytes} : hasAtLeast n bs = true ↔ n ≤ bs.length := by
  fun_induction hasAtLeast n bs <;> simp_all

/-! ### Strings of fixed length -/

/-- A string of exactly `n` bytes. -/
structure FixedBytes (n : Nat) where
  toBytes : Bytes
  length_eq : toBytes.length = n
  deriving DecidableEq

abbrev Bytes32 := FixedBytes 32

abbrev Bytes64 := FixedBytes 64

namespace FixedBytes

/-- `bs` itself when it has `n` bytes. -/
def ofBytes? (n : Nat) (bs : Bytes) : Option (FixedBytes n) :=
  if h : bs.length = n then some ⟨bs, h⟩ else none

/-- The number `k` modulo `256 ^ n`, most significant byte first. -/
def ofNat {n : Nat} (k : Nat) : FixedBytes n :=
  ⟨bigEndian n k, length_bigEndian n k⟩

/-- The number whose big-endian form the bytes are. -/
def toNat {n : Nat} (b : FixedBytes n) : Nat :=
  ofBigEndian b.toBytes

/-- Byte order, which is the order of the numbers. -/
def before {n : Nat} (a b : FixedBytes n) : Bool :=
  bytesBefore a.toBytes b.toBytes

end FixedBytes

end MoveTx
