import MoveTx.Session.Finalize
import MoveTx.Signing.MultiSig

/-!
# Signing and submitting

The sender signs the data of a session, and the sponsor after it when it is somebody else. A session is
submitted at most once, whether or not the request reaches the chain.
-/

namespace MoveTx

/-- The base-64 texts of a transaction and of its signatures. -/
structure SignedTransaction where
  transaction : String
  signatures : List String
  deriving DecidableEq

instance : JsonForm SignedTransaction where
  toJson t := .ofFields [("tx_bytes", toJson t.transaction), ("signatures", toJson t.signatures)]
  ofJson? levels j := do
    let f ← j.fields? ["tx_bytes", "signatures"] levels
    return ⟨← f.required "tx_bytes", ← f.required "signatures"⟩

namespace Session

/-- The signature of an address, whose key must be in the keystore. -/
def signatureOf (s : Session) (signer : Address) (data : TransactionData) :
    Except ClientError String := do
  match s.config.keystore.get? signer with
  | none => throw (.unknownSigner signer)
  | some pair =>
    let e ← (pair.signTransaction data).mapError .signing
    return e.base64

/-- The signature of the sponsor, if there is one besides the sender. -/
def sponsorSignatures (s : Session) (data : TransactionData) : Except ClientError (List String) := do
  match s.sponsor with
  | none => return []
  | some sponsor =>
    if sponsor = s.sender then return []
    else
      let signature ← s.signatureOf sponsor data
      return [signature]

/-- The data under a first signature and that of the sponsor. -/
def signedWith (s : Session) (data : TransactionData) (first : Except ClientError String) :
    Except ClientError SignedTransaction := do
  let signature ← first
  let rest ← s.sponsorSignatures data
  return ⟨Base64.encode (encode data), signature :: rest⟩

variable {σ : Type}

/-- The data of the session in base 64. -/
def build (c : Channel σ) : OnlineStep σ String := do
  let data ← finalizedData c
  return Base64.encode (encode data)

/-- The data of the session, signed from the keystore. -/
def sign (c : Channel σ) : OnlineStep σ SignedTransaction := do
  let data ← finalizedData c
  let s ← current
  ofExcept id (s.signedWith data (s.signatureOf s.sender data))

/-- The data of the session, signed by members of the multi-signature key that sends it. -/
def signMultiSig (c : Channel σ) (key : MultiSigKey) (signers : List TransactionSigner) :
    OnlineStep σ SignedTransaction := do
  let s ← current
  if key.address ≠ s.sender then throw (.unknownSigner s.sender)
  let data ← finalizedData c
  let s ← current
  let first := (key.signTransaction signers data).mapError ClientError.signing
  ofExcept id (s.signedWith data (first.map MultiSigEnvelope.base64))

/-- Marks the session as submitted, which happens only once. -/
def markSubmitted : SessionStep Unit := do
  let s ← get
  if s.submitted then throw .alreadySubmitted else set { s with submitted := true }

/-- Hands a signed transaction to the chain. -/
def submit (c : Channel σ) (t : SignedTransaction) (options : ExecuteOptions) :
    OnlineStep σ ExecutionResult := do
  offline markSubmitted
  request (c.execute t.transaction t.signatures options)

/-- Signs from the keystore and submits. -/
def execute (c : Channel σ) (options : ExecuteOptions) : OnlineStep σ ExecutionResult := do
  if (← current).submitted then throw .alreadySubmitted
  let t ← sign c
  submit c t options

end Session

end MoveTx
