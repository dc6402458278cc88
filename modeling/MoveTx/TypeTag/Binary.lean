import MoveTx.TypeTag.Basic

/-!
# Binary form of types

The variant tags are those of the chain, which added three integer types after vectors and structs.
Reading counts the levels that nesting may still go down, and fails when none is left.
-/

namespace MoveTx

namespace PrimitiveType

def tag : PrimitiveType → Nat
  | bool => 0
  | u8 => 1
  | u64 => 2
  | u128 => 3
  | address => 4
  | signer => 5
  | u16 => 8
  | u32 => 9
  | u256 => 10

def ofTag? : Nat → Option PrimitiveType
  | 0 => some bool
  | 1 => some u8
  | 2 => some u64
  | 3 => some u128
  | 4 => some address
  | 5 => some signer
  | 8 => some u16
  | 9 => some u32
  | 10 => some u256
  | _ => none

end PrimitiveType

namespace TypeTag

mutual

def toBytes : TypeTag → Bytes
  | .primitive p => Codec.uleb p.tag
  | .vector t => Codec.uleb 6 ++ toBytes t
  | .struct a m n ts =>
    Codec.uleb 7 ++ encode a ++ encode m ++ encode n ++ Codec.uleb ts.length ++ toBytesList ts

def toBytesList : List TypeTag → Bytes
  | [] => []
  | t :: ts => toBytes t ++ toBytesList ts

end

/-- Reads a struct whose parameters are read by `parameter`. -/
def structReader (parameter : Reader TypeTag) : Reader StructTag := do
  let address ← decode
  let module ← decode
  let name ← decode
  let parameters ← Reader.list parameter
  return ⟨address, module, name, parameters⟩

/-- Reads a type that uses at most `levels` levels, counting its own. -/
def readerWithin : (levels : Nat) → Reader TypeTag
  | 0 => throw (.depthExceeded "TypeTag" maxDepth)
  | levels + 1 => do
    match ← Reader.variant with
    | 6 => TypeTag.vector <$> readerWithin levels
    | 7 => StructTag.toTypeTag <$> structReader (readerWithin levels)
    | tag =>
      match PrimitiveType.ofTag? tag with
      | some p => return .primitive p
      | none => throw (.invalidTag "TypeTag" tag)

instance : Codec TypeTag where
  encode := toBytes
  decode := readerWithin (maxDepth + 1)

end TypeTag

instance : Codec StructTag where
  encode s := encode s.address ++ encode s.module ++ encode s.name ++ encode s.parameters
  decode := TypeTag.structReader (TypeTag.readerWithin TypeTag.maxDepth)

end MoveTx
