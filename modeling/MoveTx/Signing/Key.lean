import MoveTx.Curve.Ecdsa
import MoveTx.Curve.Ed25519
import MoveTx.Signing.Error
import MoveTx.Text.Base64
import MoveTx.Text.Blank
import MoveTx.Transaction.Intent

/-!
# Keys

A public key is the bytes of a point under its scheme, and hashes to an address. A key pair holds the
32 secret bytes; both sign and verify raw signatures of 64 bytes. A keystring is the base-64 text of
the flag and the secret.
-/

namespace MoveTx

/-- A public key, which need not be a point of its curve until it verifies something. -/
structure PublicKey where
  scheme : KeyScheme
  bytes : Bytes
  length_eq : bytes.length = scheme.publicKeyLength
  deriving DecidableEq

namespace KeyScheme

/-- The Weierstrass curve of the scheme, if it has one. -/
def curve? : KeyScheme → Option Curve.Weierstrass
  | ed25519 => none
  | secp256k1 => some .secp256k1
  | secp256r1 => some .secp256r1

/-- Whether the secret is a private key. Ed25519 takes all, the others the numbers below their order
but zero. -/
def accepts (s : KeyScheme) (secret : Bytes32) : Bool :=
  match s.curve? with
  | none => true
  | some c => Curve.Ecdsa.isPrivateKey c secret.toNat

/-- Whether the scheme refuses the other of two values of `s` that verify. -/
def lowOnly : KeyScheme → Bool
  | secp256k1 => true
  | _ => false

end KeyScheme

namespace PublicKey

def ofBytes (scheme : SignatureScheme) (bs : Bytes) : Except SigningError PublicKey :=
  match scheme with
  | .multiSig => .error (.unknownScheme scheme.flag)
  | .single s =>
    if h : bs.length = s.publicKeyLength then .ok ⟨s, bs, h⟩
    else .error (.badKeyLength scheme s.publicKeyLength bs.length)

/-- Reads a flag and the bytes of a key. -/
def ofFlagged : Bytes → Except SigningError PublicKey
  | [] => .error (.invalidKey .empty)
  | flag :: bs =>
    match SignatureScheme.ofFlag? flag with
    | none => .error (.unknownScheme flag)
    | some scheme => ofBytes scheme bs

/-- The flag and the bytes of the key. -/
def flagged (k : PublicKey) : Bytes :=
  k.scheme.flag :: k.bytes

def base64 (k : PublicKey) : String :=
  Base64.encode k.flagged

/-- The hash of the flag and the key. -/
def address (k : PublicKey) : Address :=
  ⟨Blake2b.hash k.flagged⟩

/-- The scheme and the first eight bytes. -/
def describe (k : PublicKey) : String :=
  "PublicKey(" ++ k.scheme.name ++ ":" ++ Hex.encode (k.bytes.take 8) ++ ")"

/-- Verifies an Ed25519 signature. The length of the signature is looked at before the key. -/
def verifyEdwards (k : PublicKey) (message signature : Bytes) : Except SigningError Unit :=
  if signature.length ≠ 64 then .error (.malformedSignature (.rawLength signature.length))
  else
    match Curve.Ed25519.decompress? k.bytes with
    | none => .error (.invalidKey .refusedByCurve)
    | some point =>
      if Curve.Ed25519.verify k.bytes point message signature then .ok ()
      else .error .invalidSignature

/-- Verifies an ECDSA signature. The key is looked at before the signature. -/
def verifyEcdsa (k : PublicKey) (c : Curve.Weierstrass) (message signature : Bytes) :
    Except SigningError Unit :=
  match c.decompress? k.bytes with
  | none => .error (.invalidKey .refusedByCurve)
  | some point =>
    match Curve.Ecdsa.Signature.ofBytes? c signature with
    | none => .error (.malformedSignature .refusedByCurve)
    | some g =>
      if k.scheme.lowOnly && g.isHigh c then .error .invalidSignature
      else if Curve.Ecdsa.verify c point message g then .ok ()
      else .error .invalidSignature

/-- Verifies a raw signature of a message. -/
def verify (k : PublicKey) (message signature : Bytes) : Except SigningError Unit :=
  match k.scheme.curve? with
  | none => k.verifyEdwards message signature
  | some c => k.verifyEcdsa c message signature

end PublicKey

/-! ### Key pairs -/

/-- A private key of a scheme. -/
structure KeyPair where
  scheme : KeyScheme
  secret : Bytes32
  valid : scheme.accepts secret = true
  deriving DecidableEq

namespace KeyPair

/-- The count of bytes of a private key. -/
def secretLength : Nat := 32

/-- The key pair of 32 secret bytes. -/
def ofSecret (scheme : SignatureScheme) (secret : Bytes32) : Except SigningError KeyPair :=
  match scheme with
  | .multiSig => .error (.unknownScheme scheme.flag)
  | .single s =>
    if h : s.accepts secret = true then .ok ⟨s, secret, h⟩
    else .error (.invalidKey .refusedByCurve)

/-- The key pair of secret bytes, of which there must be 32. -/
def ofBytes (scheme : SignatureScheme) (bs : Bytes) : Except SigningError KeyPair :=
  match FixedBytes.ofBytes? 32 bs with
  | none => .error (.badKeyLength scheme secretLength bs.length)
  | some secret => ofSecret scheme secret

/-- Reads a keystring, with white space allowed around it. -/
def ofKeystring (s : String) : Except SigningError KeyPair :=
  match Base64.decode? (Text.trim s) with
  | none => .error (.invalidKeystring .notBase64)
  | some [] => .error (.invalidKeystring (.length (1 + secretLength) 0))
  | some (flag :: bs) =>
    if bs.length ≠ secretLength then
      .error (.invalidKeystring (.length (1 + secretLength) (1 + bs.length)))
    else
      match SignatureScheme.ofFlag? flag with
      | none => .error (.unknownScheme flag)
      | some scheme => ofBytes scheme bs

def keystring (k : KeyPair) : String :=
  Base64.encode (k.scheme.flag :: k.secret.toBytes)

/-- The point of the private key, as its curve writes it. -/
def publicKey (k : KeyPair) : PublicKey :=
  match k.scheme with
  | .ed25519 => ⟨.ed25519, Curve.Ed25519.publicKey k.secret.toBytes, Curve.Ed25519.length_publicKey _⟩
  | .secp256k1 =>
    ⟨.secp256k1, Curve.Ecdsa.publicKey .secp256k1 k.secret.toNat, Curve.Ecdsa.length_publicKey _ _⟩
  | .secp256r1 =>
    ⟨.secp256r1, Curve.Ecdsa.publicKey .secp256r1 k.secret.toNat, Curve.Ecdsa.length_publicKey _ _⟩

def address (k : KeyPair) : Address :=
  k.publicKey.address

/-- The raw signature of a message. -/
def sign (k : KeyPair) (message : Bytes) : Except SigningError Bytes64 :=
  match k.scheme.curve? with
  | none => .ok ⟨Curve.Ed25519.sign k.secret.toBytes message, Curve.Ed25519.length_sign _ _⟩
  | some c =>
    match Curve.Ecdsa.sign? c k.secret.toNat message with
    | none => .error (.invalidKey .refusedByCurve)
    | some g => .ok ⟨g.bytes, g.length_bytes⟩

/-- The public key in place of the secret. -/
def describe (k : KeyPair) : String :=
  "KeyPair(" ++ k.publicKey.describe ++ ")"

end KeyPair

end MoveTx
