import MoveTx.Address
import MoveTx.Codec.Error
import MoveTx.Digest

/-!
# Why a request to the chain fails

`ChainError` is what can go wrong with a request; `ChainError.code` names it for programs and
`ChainError.message` says it in words. Only failures of the connection may pass when tried again.
-/

namespace MoveTx

/-- Why an object cannot be used. -/
inductive Unavailable
  | missing
  | deleted (version : UInt64)
  /-- The version asked for is not there yet. -/
  | tooNew (asked : UInt64)
  | noVersion (version : UInt64)
  deriving DecidableEq

inductive ExecutionFault
  | notSigned
  | alreadyExecuted (digest : Digest)
  /-- The transaction ran and failed. -/
  | failed (error : String)
  | dryRunFailed (error : String)
  deriving DecidableEq

/-- What is wrong with what was sent or received. -/
inductive ResponseFault
  | notBase64
  | malformed (error : CodecError)
  | badCursor (cursor : String)
  | noEffects (digest : Digest)
  | objectCount (asked received : Nat)
  | otherObject (asked received : Address)
  deriving DecidableEq

inductive ChainError
  | transport (reason : String)
  | notAvailable (id : Address) (reason : Unavailable)
  | functionNotFound (name : String)
  | execution (fault : ExecutionFault)
  | undecodable (fault : ResponseFault)
  deriving DecidableEq

def Unavailable.message : Unavailable → String
  | missing => "does not exist"
  | deleted version => s!"deleted at version {version.toNat}"
  | tooNew asked => s!"version {asked.toNat} is newer than the latest"
  | noVersion version => s!"version {version.toNat} not found"

def ExecutionFault.message : ExecutionFault → String
  | notSigned => "transaction is not signed"
  | alreadyExecuted digest => "transaction " ++ digest.text ++ " already executed"
  | failed error => error
  | dryRunFailed error => "dry run failed: " ++ error

def ResponseFault.message : ResponseFault → String
  | notBase64 => "tx bytes are not base64: <base64>"
  | malformed error => error.message
  | badCursor cursor => "bad coin cursor " ++ Text.quoted cursor
  | noEffects digest => "no effects returned for " ++ digest.text
  | objectCount asked received => s!"asked for {asked} objects, got {received}"
  | otherObject asked received =>
    "asked for object " ++ asked.text ++ ", got " ++ received.text

/-- The name of the fault, for programs that tell faults apart. -/
def ChainError.code : ChainError → String
  | transport _ => "Rpc.Transport"
  | notAvailable _ _ => "Rpc.NotFound"
  | functionNotFound _ => "Rpc.FunctionNotFound"
  | execution _ => "Rpc.Execution"
  | undecodable _ => "Rpc.Decode"

def ChainError.message : ChainError → String
  | transport reason => "transport error: " ++ reason
  | notAvailable id reason => "object " ++ id.text ++ " not available: " ++ reason.message
  | functionNotFound name => "move function " ++ name ++ " not found"
  | execution fault => "execution failed: " ++ fault.message
  | undecodable fault => "failed to decode response: " ++ fault.message

/-- Whether the same request may succeed later. -/
def ChainError.isTransient : ChainError → Bool
  | transport _ => true
  | _ => false

end MoveTx
