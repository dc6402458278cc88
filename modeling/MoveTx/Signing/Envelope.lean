import MoveTx.Signing.Key

/-!
# Signature envelopes

The envelope of a single signature is the flag of its scheme, the 64 bytes of the signature and the
public key, so that the chain can verify it without knowing the key.
-/

namespace MoveTx

structure Envelope where
  signature : Bytes64
  key : PublicKey
  deriving DecidableEq

namespace Envelope

def bytes (e : Envelope) : Bytes :=
  e.key.scheme.flag :: e.signature.toBytes ++ e.key.bytes

def base64 (e : Envelope) : String :=
  Base64.encode e.bytes

/-- Reads an envelope, whose length the scheme fixes. -/
def ofBytes : Bytes → Except SigningError Envelope
  | [] => .error (.malformedSignature .empty)
  | flag :: rest =>
    match SignatureScheme.ofFlag? flag with
    | none | some .multiSig => .error (.unknownScheme flag)
    | some (.single s) =>
      match FixedBytes.ofBytes? 64 (rest.take 64),
          PublicKey.ofBytes (.single s) (rest.drop 64) with
      | some signature, .ok key => .ok ⟨signature, key⟩
      | _, _ =>
        .error (.malformedSignature (.envelopeLength s (65 + s.publicKeyLength) (1 + rest.length)))

def ofBase64 (s : String) : Except SigningError Envelope :=
  match Base64.decode? s with
  | none => .error (.malformedSignature .notBase64)
  | some bs => ofBytes bs

/-- The scheme and the first eight bytes of the signature. -/
def describe (e : Envelope) : String :=
  "SuiSignature(" ++ e.key.scheme.name ++ ":" ++ Hex.encode (e.signature.toBytes.take 8) ++ "...)"

/-- Verifies the signature of the binary form of a transaction. -/
def verifyTransaction (e : Envelope) (bs : Bytes) : Except SigningError Unit :=
  e.key.verify (Intent.transaction.digest bs).toBytes e.signature.toBytes

end Envelope

/-- Whatever signs the binary form of a transaction. -/
abbrev TransactionSigner := Bytes → Except SigningError Envelope

namespace KeyPair

/-- Signs a binary form under an intent. -/
def signWithIntent (k : KeyPair) (intent : Intent) (bs : Bytes) : Except SigningError Envelope := do
  let signature ← k.sign (intent.digest bs).toBytes
  return ⟨signature, k.publicKey⟩

/-- Signs the binary form of a transaction. -/
def signTransactionBytes (k : KeyPair) (bs : Bytes) : Except SigningError Envelope :=
  k.signWithIntent .transaction bs

def signTransaction (k : KeyPair) (data : TransactionData) : Except SigningError Envelope :=
  k.signTransactionBytes (encode data)

/-- Signs a message that is no transaction. -/
def signPersonalMessage (k : KeyPair) (message : Bytes) : Except SigningError Envelope :=
  k.signWithIntent .personalMessage (encode message)

end KeyPair

end MoveTx
