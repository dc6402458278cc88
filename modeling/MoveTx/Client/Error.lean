import MoveTx.Builder.Error
import MoveTx.Chain.Error
import MoveTx.Client.Gas
import MoveTx.Package.Error
import MoveTx.Signing.Error

/-!
# What can go wrong with a transaction

`ClientError` is an error of any part of the library, or one of the client's own.
`ClientError.category` groups errors for programs that handle them.
-/

namespace MoveTx

inductive ClientError
  | codec (error : CodecError)
  | text (error : TextError)
  | builder (error : BuilderError)
  | module (error : ModuleError)
  | signing (error : SigningError)
  | chain (error : ChainError)
  | package (error : PackageError)
  | gas (fault : GasFault)
  /-- The transaction was handed to the chain before. -/
  | alreadySubmitted
  /-- There is no key for an address that must sign. -/
  | unknownSigner (address : Address)
  /-- A configuration without keys. -/
  | noKeys

inductive ErrorCategory
  | encoding
  | moduleFormat
  | addressFormat
  | signing
  | multiSig
  | build
  | digestMismatch
  | builderState
  | resolution
  | gas
  | transport
  | execution
  | configuration
  deriving DecidableEq

def ErrorCategory.name : ErrorCategory → String
  | encoding => "Encoding"
  | moduleFormat => "ModuleFormat"
  | addressFormat => "AddressFormat"
  | signing => "Signing"
  | multiSig => "MultiSig"
  | build => "Build"
  | digestMismatch => "DigestMismatch"
  | builderState => "BuilderState"
  | resolution => "Resolution"
  | gas => "Gas"
  | transport => "Transport"
  | execution => "Execution"
  | configuration => "Configuration"

def SigningError.category : SigningError → ErrorCategory
  | signerNotMember _ | duplicateSigner _ | duplicateMember _ | insufficientWeight _ _
  | invalidThreshold _ _ | invalidMemberCount _ _ => .multiSig
  | _ => .signing

def ChainError.category : ChainError → ErrorCategory
  | transport _ | undecodable _ => .transport
  | notAvailable _ _ | functionNotFound _ => .resolution
  | execution _ => .execution

def PackageError.category : PackageError → ErrorCategory
  | digestMismatch _ _ => .digestMismatch
  | invalidModule _ _ => .moduleFormat
  | _ => .build

namespace ClientError

def category : ClientError → ErrorCategory
  | codec _ => .encoding
  | text _ => .addressFormat
  | builder _ | alreadySubmitted => .builderState
  | module _ => .moduleFormat
  | signing error => error.category
  | unknownSigner _ => .signing
  | chain error => error.category
  | package error => error.category
  | gas _ => .gas
  | noKeys => .configuration

/-- Whether the same call may succeed later. -/
def isTransient : ClientError → Bool
  | chain error => error.isTransient
  | _ => false

/-- The name of the fault, for programs that tell faults apart. -/
def code : ClientError → String
  | codec error => error.code
  | text error => error.code
  | builder error => error.code
  | module error => error.code
  | signing error => error.code
  | chain error => error.code
  | package error => error.code
  | gas _ => "Transaction.GasSelectionFailed"
  | alreadySubmitted => "Transaction.AlreadyExecuted"
  | unknownSigner _ => "Transaction.UnknownSigner"
  | noKeys => "Transaction.Config"

def message : ClientError → String
  | codec error => "encoding error: " ++ error.message
  | text error => error.message
  | builder error => "builder error: " ++ error.message
  | module error => "module error: " ++ error.message
  | signing error => "signing error: " ++ error.message
  | chain error => "rpc error: " ++ error.message
  | package error => "publish error: " ++ error.message
  | gas fault => "gas selection failed: " ++ fault.message
  | alreadySubmitted => "transaction already submitted"
  | unknownSigner address => "no key for signer " ++ address.text
  | noKeys => "invalid configuration: no keystrings given"

end ClientError

end MoveTx
