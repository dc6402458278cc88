import MoveTx.Signing.Envelope

/-!
# Multi-signature keys

A multi-signature key lists member keys with weights and a threshold. An envelope under it names in a
bitmap which members signed and carries their signatures in the order of the members, followed by the
key itself.
-/

namespace MoveTx

/-- The greatest number of members of one key. -/
def maxMembers : Nat := 10

structure Member where
  key : PublicKey
  weight : UInt8
  deriving DecidableEq

/-- The sum of the weights. -/
def totalWeight : List Member → Nat
  | [] => 0
  | m :: rest => m.weight.toNat + totalWeight rest

namespace MultiSigKey

/-- Fails at the first member whose key stands before it, `earlier` being the keys already passed. -/
def checkDistinct : (earlier : List PublicKey) → List Member → Except SigningError Unit
  | _, [] => .ok ()
  | earlier, m :: rest =>
    if m.key ∈ earlier then .error (.duplicateMember m.key.address)
    else checkDistinct (m.key :: earlier) rest

/-- What members and a threshold must meet: one to ten members, no key twice, no weight of zero, and a
threshold that the weights can reach. -/
def check (members : List Member) (threshold : UInt16) : Except SigningError Unit := do
  if members.isEmpty || maxMembers < members.length then
    throw (.invalidMemberCount members.length maxMembers)
  checkDistinct [] members
  if threshold = 0 ∨ totalWeight members < threshold.toNat ∨ members.any (fun m => m.weight == 0) then
    throw (.invalidThreshold threshold.toNat (totalWeight members))

end MultiSigKey

structure MultiSigKey where
  /-- Bits of a bitmap refer to this order. -/
  members : List Member
  threshold : UInt16
  valid : MultiSigKey.check members threshold = .ok ()
  deriving DecidableEq

/-- The signatures of some members under a multi-signature key. -/
structure MultiSigEnvelope where
  bitmap : UInt16
  /-- In the order of the members. -/
  signatures : List Bytes64
  key : MultiSigKey
  deriving DecidableEq

namespace MultiSigKey

def build (members : List Member) (threshold : UInt16) : Except SigningError MultiSigKey :=
  match h : check members threshold with
  | .ok () => .ok ⟨members, threshold, h⟩
  | .error e => .error e

/-- What the address is the hash of: the flag, the threshold, and the flag, key and weight of every
member. -/
def addressBytes (k : MultiSigKey) : Bytes :=
  SignatureScheme.multiSig.flag :: encode k.threshold ++
    k.members.flatMap fun m => m.key.flagged ++ [m.weight]

def address (k : MultiSigKey) : Address :=
  ⟨Blake2b.hash k.addressBytes⟩

/-! ### Binary form -/

def memberBytes (m : Member) : Bytes :=
  Codec.uleb m.key.scheme.flag.toNat ++ m.key.bytes ++ [m.weight]

def toBytes (k : MultiSigKey) : Bytes :=
  Codec.listWith memberBytes k.members ++ encode k.threshold

/-- Reads a member. The tag of its scheme fixes the length of the key. -/
def memberReader : Reader Member := do
  let tag ← Reader.variant
  match if tag < 256 then SignatureScheme.ofFlag? (UInt8.ofNat tag) else none with
  | some (.single s) =>
    let key ← Reader.fixed s.publicKeyLength
    let weight ← Reader.byte
    return ⟨⟨s, key.toBytes, key.length_eq⟩, weight⟩
  | _ => throw (.invalidTag "PublicKey" tag)

/-- Reads members and a threshold without checking them. -/
def partsReader : Reader (List Member × UInt16) := do
  let members ← Reader.list memberReader
  let threshold ← decode
  return (members, threshold)

instance : Codec MultiSigKey where
  encode := toBytes
  decode := do
    let (members, threshold) ← partsReader
    match build members threshold with
    | .ok k => return k
    | .error e => throw (.invalidValue "MultiSigPublicKey" e.message)

/-! ### Signing -/

/-- Puts each signature in the slot of its member. -/
def place (k : MultiSigKey) :
    (slots : List (Option Bytes64)) → List Envelope → Except SigningError (List (Option Bytes64))
  | slots, [] => .ok slots
  | slots, e :: rest =>
    match k.members.findIdx? fun m => m.key == e.key with
    | none => .error (.signerNotMember e.key.address)
    | some i =>
      match slots[i]? with
      | some none => place k (slots.set i (some e.signature)) rest
      | _ => .error (.duplicateSigner e.key.address)

/-- The weights of the members whose slots are filled. -/
def filledWeight (members : List Member) (slots : List (Option Bytes64)) : Nat :=
  totalWeight ((members.zip slots).filterMap fun (m, slot) => slot.map fun _ => m)

/-- The number whose bit `i` is set when slot `i` is filled. -/
def bitmapOf : List (Option Bytes64) → Nat
  | [] => 0
  | slot :: rest => (if slot.isSome then 1 else 0) + 2 * bitmapOf rest

/-- Assembles signatures, each of a different member, whose weights reach the threshold. -/
def combine (k : MultiSigKey) (signatures : List Envelope) :
    Except SigningError MultiSigEnvelope := do
  let slots ← k.place (k.members.map fun _ => none) signatures
  let weight := filledWeight k.members slots
  if weight < k.threshold.toNat then throw (.insufficientWeight weight k.threshold.toNat)
  return ⟨UInt16.ofNat (bitmapOf slots), slots.filterMap id, k⟩

/-- Signs a transaction with every signer and assembles the signatures. -/
def signTransaction (k : MultiSigKey) (signers : List TransactionSigner) (data : TransactionData) :
    Except SigningError MultiSigEnvelope := do
  let signatures ← signers.mapM fun sign => sign (encode data)
  k.combine signatures

end MultiSigKey

namespace MultiSigEnvelope

/-- The places of the set bits of a bitmap. -/
def setBits (bitmap : UInt16) : List Nat :=
  (List.range 16).filter bitmap.toNat.testBit

/-- The places of the members that signed. -/
def signers (e : MultiSigEnvelope) : List Nat :=
  (setBits e.bitmap).filter (· < maxMembers)

def bytes (e : MultiSigEnvelope) : Bytes :=
  SignatureScheme.multiSig.flag :: encode e.bitmap ++ e.signatures.flatMap FixedBytes.toBytes ++
    e.key.toBytes

def base64 (e : MultiSigEnvelope) : String :=
  Base64.encode e.bytes

/-- Reads the parts of an envelope after its flag. There are as many signatures as set bits. -/
def partsReader : Reader (UInt16 × List Bytes64 × List Member × UInt16) := do
  let bitmap : UInt16 ← decode
  let signatures ← Reader.times (Reader.fixed 64) (setBits bitmap).length
  let (members, threshold) ← MultiSigKey.partsReader
  Reader.finish
  return (bitmap, signatures, members, threshold)

def ofBytes : Bytes → Except SigningError MultiSigEnvelope
  | [] => .error (.codec (.tooShort 1 0))
  | flag :: rest =>
    if flag ≠ SignatureScheme.multiSig.flag then .error (.unknownScheme flag)
    else
      match Reader.result partsReader rest with
      | .error e => .error (.codec e)
      | .ok (bitmap, signatures, members, threshold) => do
        let key ← MultiSigKey.build members threshold
        if Nat.pow 2 key.members.length ≤ bitmap.toNat then throw (.malformedSignature .bitmapTooWide)
        return ⟨bitmap, signatures, key⟩

def ofBase64 (s : String) : Except SigningError MultiSigEnvelope :=
  match Base64.decode? s with
  | none => .error (.malformedSignature .notBase64)
  | some bs => ofBytes bs

end MultiSigEnvelope

end MoveTx
