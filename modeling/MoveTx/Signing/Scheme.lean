import MoveTx.Bytes

/-!
# Signature schemes

Three schemes sign with a single key, and a fourth combines the signatures of several. A flag byte names
the scheme wherever a key or a signature is written.
-/

namespace MoveTx

/-- A scheme in which one key signs. -/
inductive KeyScheme
  | ed25519
  | secp256k1
  | secp256r1
  deriving DecidableEq

inductive SignatureScheme
  | single (scheme : KeyScheme)
  | multiSig
  deriving DecidableEq

namespace KeyScheme

def flag : KeyScheme → UInt8
  | ed25519 => 0
  | secp256k1 => 1
  | secp256r1 => 2

/-- The size of a public key in bytes. The two Weierstrass curves write points in compressed form. -/
def publicKeyLength : KeyScheme → Nat
  | ed25519 => 32
  | secp256k1 | secp256r1 => 33

def name : KeyScheme → String
  | ed25519 => "ed25519"
  | secp256k1 => "secp256k1"
  | secp256r1 => "secp256r1"

end KeyScheme

namespace SignatureScheme

def flag : SignatureScheme → UInt8
  | single s => s.flag
  | multiSig => 3

def ofFlag? (flag : UInt8) : Option SignatureScheme :=
  if flag = 0 then some (single .ed25519)
  else if flag = 1 then some (single .secp256k1)
  else if flag = 2 then some (single .secp256r1)
  else if flag = 3 then some multiSig
  else none

/-- The size of a public key, which only a single key has. -/
def publicKeyLength? : SignatureScheme → Option Nat
  | single s => some s.publicKeyLength
  | multiSig => none

def isSingleKey : SignatureScheme → Bool
  | single _ => true
  | multiSig => false

def name : SignatureScheme → String
  | single s => s.name
  | multiSig => "multisig"

def all : List SignatureScheme :=
  [single .ed25519, single .secp256k1, single .secp256r1, multiSig]

def ofName? (s : String) : Option SignatureScheme :=
  all.find? fun scheme => scheme.name == s

/-- The name with capital letters. -/
def title : SignatureScheme → String
  | single .ed25519 => "Ed25519"
  | single .secp256k1 => "Secp256k1"
  | single .secp256r1 => "Secp256r1"
  | multiSig => "MultiSig"

end SignatureScheme

end MoveTx
