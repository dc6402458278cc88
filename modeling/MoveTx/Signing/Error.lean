import MoveTx.Address
import MoveTx.Signing.Scheme

/-!
# Why keys and signatures are refused

`SigningError` names the fault and `SigningError.message` says it. Where the curve or the base-64 reader
has its own words, a mark in angle brackets stands for them.
-/

namespace MoveTx

inductive KeyFault
  | empty
  /-- The bytes are no key of the curve. -/
  | refusedByCurve
  deriving DecidableEq

inductive KeystringFault
  | notBase64
  | length (expected actual : Nat)
  deriving DecidableEq

inductive SignatureFault
  | empty
  | notBase64
  | rawLength (actual : Nat)
  | envelopeLength (scheme : KeyScheme) (expected actual : Nat)
  /-- The bytes are no signature of the curve. -/
  | refusedByCurve
  | bitmapTooWide
  deriving DecidableEq

inductive SigningError
  | unknownScheme (flag : UInt8)
  | badKeyLength (scheme : SignatureScheme) (expected actual : Nat)
  | invalidKey (fault : KeyFault)
  | invalidKeystring (fault : KeystringFault)
  | invalidSignature
  | malformedSignature (fault : SignatureFault)
  | signerNotMember (address : Address)
  | duplicateSigner (address : Address)
  | duplicateMember (address : Address)
  | insufficientWeight (weight threshold : Nat)
  | invalidThreshold (threshold totalWeight : Nat)
  | invalidMemberCount (count max : Nat)
  | codec (error : CodecError)
  deriving DecidableEq

def KeyFault.message : KeyFault → String
  | empty => "empty public key"
  | refusedByCurve => "<library>"

def KeystringFault.message : KeystringFault → String
  | notBase64 => "<base64>"
  | length expected actual => s!"expected {expected} bytes, got {actual}"

def SignatureFault.message : SignatureFault → String
  | empty => "empty signature"
  | notBase64 => "<library>"
  | rawLength actual => s!"expected 64 signature bytes, got {actual}"
  | envelopeLength scheme expected actual =>
    scheme.name ++ s!" signature must be {expected} bytes, got {actual}"
  | refusedByCurve => "<library>"
  | bitmapTooWide => "bitmap names a member past the end of the key"

/-- The name of the fault, for programs that tell faults apart. -/
def SigningError.code : SigningError → String
  | unknownScheme _ => "Signing.UnknownScheme"
  | badKeyLength _ _ _ => "Signing.BadKeyLength"
  | invalidKey _ => "Signing.InvalidKey"
  | invalidKeystring _ => "Signing.InvalidKeystring"
  | invalidSignature => "Signing.InvalidSignature"
  | malformedSignature _ => "Signing.MalformedSignature"
  | signerNotMember _ => "Signing.SignerNotMember"
  | duplicateSigner _ => "Signing.DuplicateSigner"
  | duplicateMember _ => "Signing.DuplicateMember"
  | insufficientWeight _ _ => "Signing.InsufficientWeight"
  | invalidThreshold _ _ => "Signing.InvalidThreshold"
  | invalidMemberCount _ _ => "Signing.InvalidMemberCount"
  | codec error => "Signing." ++ error.code

def SigningError.message : SigningError → String
  | unknownScheme flag => "unknown signature scheme flag 0x" ++ Hex.ofByte flag
  | badKeyLength scheme expected actual =>
    "bad " ++ scheme.title ++ s!" key length: expected {expected} bytes, got {actual}"
  | invalidKey fault => "invalid key material: " ++ fault.message
  | invalidKeystring fault => "invalid keystring: " ++ fault.message
  | invalidSignature => "signature verification failed"
  | malformedSignature fault => "malformed signature: " ++ fault.message
  | signerNotMember address => "signer " ++ address.text ++ " is not a member of the multisig"
  | duplicateSigner address => "member " ++ address.text ++ " signed more than once"
  | duplicateMember address =>
    "public key for " ++ address.text ++ " appears more than once in the multisig"
  | insufficientWeight weight threshold =>
    s!"insufficient weight: {weight} of threshold {threshold}"
  | invalidThreshold threshold totalWeight =>
    s!"invalid threshold {threshold} for total weight {totalWeight}"
  | invalidMemberCount count max =>
    s!"multisig must have between 1 and {max} members, got {count}"
  | codec error => "codec error: " ++ error.message

end MoveTx
