import MoveTx.Codec.Reader

/-!
# Canonical binary form

Integers are little-endian and of fixed width, a truth value is one byte, lengths and variant tags are
variable-length integers of the fewest groups, and a record is its fields in order. `Codec` pairs the
writer of a type with its reader.
-/

namespace MoveTx

/-- A type with a canonical binary form. -/
class Codec (α : Type) where
  encode : α → Bytes
  decode : Reader α

export Codec (encode decode)

/-- A value that is kept in a place of its own. -/
structure Boxed (α : Type) where
  value : α

namespace Codec

/-- Reads a value that takes up the whole of `bs`. -/
def decodeAll {α : Type} [Codec α] (bs : Bytes) : Except CodecError α :=
  Reader.result (decode <* Reader.finish) bs

/-! ### Parts of binary forms -/

/-- Groups of seven bits, least significant first, each but the last with its top bit set. -/
def uleb (n : Nat) : Bytes :=
  if n < 128 then [UInt8.ofNat n] else UInt8.ofNat (n % 128 + 128) :: uleb (n / 128)
termination_by n
decreasing_by omega

/-- Bytes after their count. -/
def bytes (bs : Bytes) : Bytes :=
  uleb bs.length ++ bs

/-- The form of a list whose elements are written by `f`. -/
def listWith {α : Type} (f : α → Bytes) (as : List α) : Bytes :=
  uleb as.length ++ as.flatMap f

/-- The form of an optional value that is written by `f`. -/
def optionWith {α : Type} (f : α → Bytes) : Option α → Bytes
  | none => [0]
  | some a => 1 :: f a

/-! ### Basic types -/

instance : Codec UInt8 where
  encode n := [n]
  decode := Reader.byte

instance : Codec UInt16 where
  encode n := littleEndian 2 n.toNat
  decode := UInt16.ofNat <$> Reader.littleEndian 2

instance : Codec UInt32 where
  encode n := littleEndian 4 n.toNat
  decode := UInt32.ofNat <$> Reader.littleEndian 4

instance : Codec UInt64 where
  encode n := littleEndian 8 n.toNat
  decode := UInt64.ofNat <$> Reader.littleEndian 8

instance : Codec (BitVec 128) where
  encode n := littleEndian 16 n.toNat
  decode := BitVec.ofNat 128 <$> Reader.littleEndian 16

instance : Codec Bool where
  encode b := [if b then 1 else 0]
  decode := Reader.bool

instance : Codec String where
  encode s := bytes (textBytes s)
  decode := Reader.string

instance {α : Type} [Codec α] : Codec (List α) where
  encode := listWith encode
  decode := Reader.list decode

instance {α : Type} [Codec α] : Codec (Option α) where
  encode := optionWith encode
  decode := Reader.option decode

/-- A boxed value is written as the value itself. -/
instance {α : Type} [Codec α] : Codec (Boxed α) where
  encode b := encode b.value
  decode := Boxed.mk <$> decode

instance {α β : Type} [Codec α] [Codec β] : Codec (α × β) where
  encode p := encode p.1 ++ encode p.2
  decode := do
    let a ← decode
    let b ← decode
    return (a, b)

end Codec

end MoveTx
