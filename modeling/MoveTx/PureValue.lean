import MoveTx.Digest
import MoveTx.TypeTag.Basic

/-!
# Pure values

A pure value is an argument that is no object: a scalar, a sequence, or an optional value. It has a
binary form, the Move type that can be told from it, and an origin, which keeps apart inputs that
happen to have the same bytes.
-/

namespace MoveTx

/-- A pure value without parts. Signed integers stand for the unsigned type of the same width. -/
inductive Scalar
  | bool (v : Bool)
  | u8 (v : UInt8)
  | u16 (v : UInt16)
  | u32 (v : UInt32)
  | u64 (v : UInt64)
  | u128 (v : BitVec 128)
  /-- Least significant byte first. -/
  | u256 (v : Bytes32)
  | i8 (v : Int8)
  | i16 (v : Int16)
  | i32 (v : Int32)
  | i64 (v : Int64)
  /-- Two's complement. -/
  | i128 (v : BitVec 128)
  | text (v : String)
  | address (v : Address)
  | digest (v : Digest)
  | bytes (v : Bytes)
  deriving DecidableEq

inductive PureValue
  | scalar (s : Scalar)
  | seq (items : List PureValue)
  | absent
  | present (value : PureValue)

/-- Where the bytes of a pure input came from. -/
inductive PureOrigin
  | integer
  | text
  | address
  | boolean
  | digest
  | bytes
  | sequence
  | optional
  deriving DecidableEq

namespace PureOrigin

def name : PureOrigin → String
  | integer => "Integer"
  | text => "String"
  | address => "Address"
  | boolean => "Boolean"
  | digest => "Digest"
  | bytes => "Bytes"
  | sequence => "Sequence"
  | optional => "Optional"

def all : List PureOrigin :=
  [integer, text, address, boolean, digest, bytes, sequence, optional]

def ofName? (s : String) : Option PureOrigin :=
  all.find? fun o => o.name == s

end PureOrigin

/-- The binary form of a pure value and its origin. -/
structure PureBytes where
  bytes : Bytes
  origin : PureOrigin
  deriving DecidableEq

namespace Scalar

def origin : Scalar → PureOrigin
  | bool _ => .boolean
  | text _ => .text
  | address _ => .address
  | digest _ => .digest
  | bytes _ => .bytes
  | _ => .integer

/-- The Move type that the value is encoded as. -/
def typeTag : Scalar → TypeTag
  | bool _ => .bool
  | u8 _ | i8 _ => .u8
  | u16 _ | i16 _ => .u16
  | u32 _ | i32 _ => .u32
  | u64 _ | i64 _ => .u64
  | u128 _ | i128 _ => .u128
  | u256 _ => .u256
  | text _ => StructTag.string.toTypeTag
  | address _ => .addressType
  | digest _ | bytes _ => .vector .u8

def toBytes : Scalar → Bytes
  | bool v => encode v
  | u8 v => encode v
  | u16 v => encode v
  | u32 v => encode v
  | u64 v => encode v
  | u128 v | i128 v => encode v
  | u256 v => v.toBytes
  | i8 v => encode v.toUInt8
  | i16 v => encode v.toUInt16
  | i32 v => encode v.toUInt32
  | i64 v => encode v.toUInt64
  | text v => encode v
  | address v => encode v
  | digest v => encode v
  | bytes v => Codec.bytes v

/-- The bytes as numbers between brackets. -/
def describeBytes (bs : Bytes) : String :=
  "[" ++ String.intercalate ", " (bs.map fun b => toString b.toNat) ++ "]"

/-- The name of the kind and the value in parentheses. -/
def describe : Scalar → String
  | bool v => if v then "Bool(true)" else "Bool(false)"
  | u8 v => s!"U8({v.toNat})"
  | u16 v => s!"U16({v.toNat})"
  | u32 v => s!"U32({v.toNat})"
  | u64 v => s!"U64({v.toNat})"
  | u128 v => s!"U128({v.toNat})"
  | u256 v => "U256(" ++ describeBytes v.toBytes ++ ")"
  | i8 v => s!"I8({v.toInt})"
  | i16 v => s!"I16({v.toInt})"
  | i32 v => s!"I32({v.toInt})"
  | i64 v => s!"I64({v.toInt})"
  | i128 v => s!"I128({v.toInt})"
  | text v => "Str(" ++ Text.quoted v ++ ")"
  | address v => "Address(" ++ v.describe ++ ")"
  | digest v => "Digest(" ++ v.describe ++ ")"
  | bytes v => "Bytes(" ++ describeBytes v ++ ")"

end Scalar

namespace PureValue

def ofU8 (v : UInt8) : PureValue := .scalar (.u8 v)
def ofU64 (v : UInt64) : PureValue := .scalar (.u64 v)
def ofAddress (v : Address) : PureValue := .scalar (.address v)
def ofBytes (v : Bytes) : PureValue := .scalar (.bytes v)

/-- The value as an optional one. -/
def ofOption : Option PureValue → PureValue
  | none => .absent
  | some v => .present v

def origin : PureValue → PureOrigin
  | scalar s => s.origin
  | seq _ => .sequence
  | absent | present _ => .optional

/-- The Move type, as far as the value shows it: the first item decides for a sequence, and an empty
sequence and an absent value have none. -/
def typeTag? : PureValue → Option TypeTag
  | scalar s => some s.typeTag
  | seq [] => none
  | seq (item :: _) => (typeTag? item).map .vector
  | absent => none
  | present v => (typeTag? v).map fun t => (StructTag.option t).toTypeTag

mutual

def toBytes : PureValue → Bytes
  | .scalar s => s.toBytes
  | .seq items => Codec.uleb items.length ++ toBytesList items
  | .absent => [0]
  | .present v => 1 :: toBytes v

def toBytesList : List PureValue → Bytes
  | [] => []
  | v :: vs => toBytes v ++ toBytesList vs

end

mutual

/-- The value in full, with the kind of every part. -/
def describe : PureValue → String
  | .scalar s => s.describe
  | .seq items => "Seq([" ++ String.intercalate ", " (describeList items) ++ "])"
  | .absent => "Option(None)"
  | .present v => "Option(Some(" ++ describe v ++ "))"

def describeList : List PureValue → List String
  | [] => []
  | v :: vs => describe v :: describeList vs

end

def encoded (v : PureValue) : PureBytes :=
  ⟨v.toBytes, v.origin⟩

/-! ### Equality -/

mutual

def decEq : (v w : PureValue) → Decidable (v = w)
  | .scalar s, .scalar t =>
    if h : s = t then isTrue (h ▸ rfl) else isFalse (fun e => h (PureValue.scalar.inj e))
  | .seq vs, .seq ws =>
    match decEqList vs ws with
    | isTrue h => isTrue (h ▸ rfl)
    | isFalse h => isFalse (fun e => h (PureValue.seq.inj e))
  | .absent, .absent => isTrue rfl
  | .present v, .present w =>
    match decEq v w with
    | isTrue h => isTrue (h ▸ rfl)
    | isFalse h => isFalse (fun e => h (PureValue.present.inj e))
  | .scalar _, .seq _ => isFalse nofun
  | .scalar _, .absent => isFalse nofun
  | .scalar _, .present _ => isFalse nofun
  | .seq _, .scalar _ => isFalse nofun
  | .seq _, .absent => isFalse nofun
  | .seq _, .present _ => isFalse nofun
  | .absent, .scalar _ => isFalse nofun
  | .absent, .seq _ => isFalse nofun
  | .absent, .present _ => isFalse nofun
  | .present _, .scalar _ => isFalse nofun
  | .present _, .seq _ => isFalse nofun
  | .present _, .absent => isFalse nofun

def decEqList : (vs ws : List PureValue) → Decidable (vs = ws)
  | [], [] => isTrue rfl
  | [], _ :: _ => isFalse nofun
  | _ :: _, [] => isFalse nofun
  | v :: vs, w :: ws =>
    match decEq v w with
    | isTrue h =>
      match decEqList vs ws with
      | isTrue g => isTrue (h ▸ g ▸ rfl)
      | isFalse g => isFalse (fun e => g (List.cons.inj e).2)
    | isFalse h => isFalse (fun e => h (List.cons.inj e).1)

end

instance : DecidableEq PureValue := decEq

end PureValue

end MoveTx
