import MoveTx.Text.Quoted

/-!
# Why bytes are refused

Writing a value never fails. `CodecError` is what can be wrong with the bytes of a value;
`CodecError.code` names it for programs and `CodecError.message` says it in words.
-/

namespace MoveTx

inductive CodecError
  /-- Fewer bytes are left than the value needs. -/
  | tooShort (needed remaining : Nat)
  /-- Bytes are left after the value. -/
  | tooLong (excess : Nat)
  | lengthOverflow (length : Nat)
  | invalidTag (type : String) (tag : Nat)
  | invalidBool (byte : UInt8)
  /-- A variable-length integer ends in a group of zeros. -/
  | nonMinimalLength
  | unterminatedVarInt
  | varIntOverflow (bits : Nat)
  | invalidLength (type : String) (expected actual : Nat)
  | invalidUtf8
  | invalidIdentifier (name : String)
  | invalidValue (type reason : String)
  | depthExceeded (type : String) (max : Nat)
  /-- The variant exists, but no client builds it. -/
  | unsupportedVariant (type : String) (tag : Nat)
  deriving DecidableEq

/-- The name of the fault, for programs that tell faults apart. -/
def CodecError.code : CodecError → String
  | tooShort _ _ => "Codec.TooShort"
  | tooLong _ => "Codec.TooLong"
  | lengthOverflow _ => "Codec.LengthOverflow"
  | invalidTag _ _ => "Codec.InvalidTag"
  | invalidBool _ => "Codec.InvalidBool"
  | nonMinimalLength => "Codec.NonMinimalLength"
  | unterminatedVarInt => "Codec.UnterminatedVarInt"
  | varIntOverflow _ => "Codec.VarIntOverflow"
  | invalidLength _ _ _ => "Codec.InvalidLength"
  | invalidUtf8 => "Codec.InvalidUtf8"
  | invalidIdentifier _ => "Codec.InvalidIdentifier"
  | invalidValue _ _ => "Codec.InvalidValue"
  | depthExceeded _ _ => "Codec.DepthExceeded"
  | unsupportedVariant _ _ => "Codec.UnsupportedVariant"

def CodecError.message : CodecError → String
  | tooShort needed remaining =>
    s!"input too short: needed {needed} bytes, {remaining} remaining"
  | tooLong excess => s!"input too long: {excess} trailing bytes after value"
  | lengthOverflow length => s!"sequence length {length} exceeds the maximum encodable length"
  | invalidTag type tag => s!"invalid variant tag {tag} for {type}"
  | invalidBool byte => "invalid boolean byte 0x" ++ Hex.ofByte byte
  | nonMinimalLength => "non-minimal ULEB128 encoding"
  | unterminatedVarInt => "unterminated ULEB128 integer"
  | varIntOverflow bits => s!"ULEB128 value overflows {bits} bits"
  | invalidLength type expected actual =>
    s!"invalid length for {type}: expected {expected}, got {actual}"
  | invalidUtf8 => "invalid UTF-8 in string"
  | invalidIdentifier name => "invalid identifier " ++ Text.quoted name
  | invalidValue type reason => s!"invalid {type}: {reason}"
  | depthExceeded type max => s!"{type} nesting exceeds {max} levels"
  | unsupportedVariant type tag =>
    s!"variant {tag} of {type} is not supported by this client"

end MoveTx
