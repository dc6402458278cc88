import MoveTx.Text.Quoted

/-!
# Why a text denotes no value

`TextError` names the value that was looked for and the fault of the text, and `TextError.message`
says it.
-/

namespace MoveTx

inductive AddressFault
  | empty
  | tooLong
  | notHex
  deriving DecidableEq

inductive DigestFault
  | empty
  | notBase58
  | notThirtyTwoBytes
  deriving DecidableEq

/-- What a type text lacks at the place where reading stopped. -/
inductive TypeFault
  | trailing
  | expectedToken (token : String)
  | expectedName
  | invalidIdentifier
  | tooDeep (levels : Nat)
  | invalidAddress
  | unknownType
  deriving DecidableEq

inductive TextError
  | address (input : String) (fault : AddressFault)
  | digest (input : String) (fault : DigestFault)
  | identifier (input : String)
  /-- The offset counts the UTF-8 bytes before the fault. -/
  | type (input : String) (fault : TypeFault) (offset : Nat)
  /-- The text is a type, but not that of a struct. -/
  | notStruct (input : String)
  | target (input : String)
  deriving DecidableEq

def AddressFault.message : AddressFault → String
  | empty => "empty"
  | tooLong => "longer than 64 hex characters"
  | notHex => "not hex"

def DigestFault.message : DigestFault → String
  | empty => "empty"
  | notBase58 => "not base58"
  | notThirtyTwoBytes => "not 32 bytes"

def TypeFault.message : TypeFault → String
  | trailing => "unexpected trailing characters"
  | expectedToken token => s!"expected `{token}`"
  | expectedName => "expected a name"
  | invalidIdentifier => "invalid identifier"
  | tooDeep levels => s!"type nesting exceeds {levels} levels"
  | invalidAddress => "invalid struct address"
  | unknownType => "unknown type"

/-- The name of the fault, for programs that tell faults apart. -/
def TextError.code : TextError → String
  | address _ _ => "Core.InvalidAddress"
  | digest _ _ => "Core.InvalidDigest"
  | identifier _ => "Core.InvalidIdentifier"
  | type _ _ _ | notStruct _ => "Core.InvalidTypeTag"
  | target _ => "Core.InvalidTarget"

def TextError.message : TextError → String
  | address input fault => "invalid address " ++ Text.quoted input ++ ": " ++ fault.message
  | digest input fault => "invalid digest " ++ Text.quoted input ++ ": " ++ fault.message
  | identifier input => "invalid identifier " ++ Text.quoted input
  | type input fault offset =>
    "invalid type tag " ++ Text.quoted input ++ ": " ++ fault.message ++ s!" at offset {offset}"
  | notStruct input => "invalid type tag " ++ Text.quoted input ++ ": not a struct type"
  | target input =>
    "invalid move call target " ++ Text.quoted input ++ ", expected package::module::function"

end MoveTx
