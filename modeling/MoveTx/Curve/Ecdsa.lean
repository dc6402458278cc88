import MoveTx.Curve.Weierstrass
import MoveTx.Hash.Hmac

/-!
# ECDSA

Signatures are over the SHA-256 of the message. The nonce is derived from the private key and the hash,
so signing is a function, and of the two values of `s` that both verify the smaller one is written.
-/

namespace MoveTx.Curve.Ecdsa

/-! ### Keys -/

/-- Whether a number is a private key: neither zero nor beyond the order. -/
def isPrivateKey (c : Weierstrass) (d : Nat) : Bool :=
  0 < d && d < c.n

/-- The point of a private key in compressed form. The point at infinity, which belongs to no private
key, would be written as zeros. -/
def publicKey (c : Weierstrass) (d : Nat) : Bytes :=
  match c.toAffine? (c.multiply d c.generator) with
  | some q => Weierstrass.compress q
  | none => List.replicate 33 0

theorem length_publicKey (c : Weierstrass) (d : Nat) : (publicKey c d).length = 33 := by
  unfold publicKey
  split
  · exact Weierstrass.length_compress _
  · simp

/-! ### The nonce -/

/-- The state of the generator of nonces. -/
structure NonceState where
  key : Bytes
  value : Bytes

/-- Mixes `data` behind a marking byte into the state. -/
def NonceState.update (s : NonceState) (mark : UInt8) (data : Bytes) : NonceState :=
  let key := Hmac.sha256 s.key (s.value ++ mark :: data)
  ⟨key, Hmac.sha256 key s.value⟩

/-- The first candidate in range, of at most `attempts`. -/
def nonceFrom (c : Weierstrass) (s : NonceState) : (attempts : Nat) → Option Nat
  | 0 => none
  | attempts + 1 =>
    let value := Hmac.sha256 s.key s.value
    let k := ofBigEndian value
    if isPrivateKey c k then some k
    else nonceFrom c ((NonceState.mk s.key value).update 0 []) attempts

/-- The nonce for a private key and a hash. A candidate is out of range with a chance of less than one
in four thousand million, so a hundred are enough. -/
def nonce? (c : Weierstrass) (d : Nat) (hash : Bytes) : Option Nat :=
  let seed := bigEndian 32 d ++ hash
  let s := NonceState.mk (List.replicate 32 0) (List.replicate 32 1)
  nonceFrom c ((s.update 0 seed).update 1 seed) 100

/-! ### Signatures -/

structure Signature where
  r : Nat
  s : Nat
  deriving DecidableEq

/-- The two numbers one after the other. -/
def Signature.bytes (g : Signature) : Bytes :=
  bigEndian 32 g.r ++ bigEndian 32 g.s

theorem Signature.length_bytes (g : Signature) : g.bytes.length = 64 := by
  simp [Signature.bytes, length_bigEndian]

/-- Reads two numbers of 32 bytes, neither of them zero or beyond the order. -/
def Signature.ofBytes? (c : Weierstrass) (bs : Bytes) : Option Signature :=
  if bs.length = 64 then
    let g := Signature.mk (ofBigEndian (bs.take 32)) (ofBigEndian (bs.drop 32))
    if isPrivateKey c g.r && isPrivateKey c g.s then some g else none
  else none

/-- Whether `s` is the larger of the two values that verify. -/
def Signature.isHigh (c : Weierstrass) (g : Signature) : Bool :=
  c.n / 2 < g.s

/-- The signature with the smaller value of `s`. -/
def Signature.normalized (c : Weierstrass) (g : Signature) : Signature :=
  if g.isHigh c then ⟨g.r, c.n - g.s⟩ else g

/-- Signs a message. There is no signature in the event, never met, that one of its numbers is zero. -/
def sign? (c : Weierstrass) (d : Nat) (message : Bytes) : Option Signature := do
  let hash := Sha256.hash message
  let k ← nonce? c d hash
  let point ← c.toAffine? (c.multiply k c.generator)
  let r := point.x % c.n
  let s := invMod c.n k * (ofBigEndian hash + r * d) % c.n
  if r = 0 ∨ s = 0 then none else some (Signature.normalized c ⟨r, s⟩)

/-- Whether a signature of a message verifies under the point of a public key. -/
def verify (c : Weierstrass) (key : AffinePoint) (message : Bytes) (g : Signature) : Bool :=
  let z := ofBigEndian (Sha256.hash message)
  let inverse := invMod c.n g.s
  let u1 := z * inverse % c.n
  let u2 := g.r * inverse % c.n
  let point := c.add (c.multiply u1 c.generator) (c.multiply u2 (Weierstrass.ofAffine key))
  match c.toAffine? point with
  | none => false
  | some q => q.x % c.n == g.r

end MoveTx.Curve.Ecdsa
