import MoveTx.Curve.Modular
import MoveTx.Hash.Sha512

/-!
# Ed25519

The twisted Edwards curve `-x² + y² = 1 + d x² y²`. Points are computed with in extended coordinates,
where `(X, Y, Z, T)` stands for `(X / Z, Y / Z)` and `T = X Y / Z`. A point is written as its y
coordinate with the parity of x in the top bit.
-/

namespace MoveTx.Curve.Ed25519

/-- The field prime. -/
def p : Nat := Nat.pow 2 255 - 19

/-- The order of the base point. -/
def order : Nat := Nat.pow 2 252 + 27742317777372353535851937790883648493

/-- The coefficient of the curve. -/
def d : Nat := 0x52036cee2b6ffe738cc740797779e89800700a4d4141d8ab75eb4dca135978a3

/-- A square root of minus one. -/
def rootOfMinusOne : Nat := 0x2b8324804fc1df0b2b4d00993dfbd7a72f431806ad2fe478c4ee1b274a0ea0b0

structure Point where
  x : Nat
  y : Nat
  z : Nat
  t : Nat

/-! ### The group -/

def identity : Point := ⟨0, 1, 1, 0⟩

def ofAffine (x y : Nat) : Point := ⟨x, y, 1, x * y % p⟩

def base : Point :=
  ofAffine 0x216936d3cd6e53fec0a4e231fdd6dc5c692cc7609525a7b2c9562d608f25d51a
    0x6666666666666666666666666666666666666666666666666666666666666658

/-- The sum, by formulas that hold for all pairs of points. -/
def add (q r : Point) : Point :=
  let a := subMod p q.y q.x * subMod p r.y r.x % p
  let b := (q.y + q.x) * (r.y + r.x) % p
  let c := q.t * (2 * d) % p * r.t % p
  let e := 2 * q.z * r.z % p
  let f := subMod p b a
  let g := subMod p e c
  let h := (e + c) % p
  let k := (b + a) % p
  ⟨f * g % p, h * k % p, g * h % p, f * k % p⟩

def negate (q : Point) : Point :=
  ⟨(p - q.x % p) % p, q.y, q.z, (p - q.t % p) % p⟩

/-- The point `q` added up `k` times. -/
def multiply (k : Nat) (q : Point) : Point :=
  (bits k).foldl
    (fun acc bit =>
      let doubled := add acc acc
      if bit then add doubled q else doubled)
    identity

/-! ### Points as bytes -/

/-- The bit of a written point that tells the sign of the x coordinate. -/
def signBit : Nat := Nat.pow 2 255

def compress (q : Point) : Bytes :=
  let inverse := invMod p q.z
  let x := q.x * inverse % p
  let y := q.y * inverse % p
  littleEndian 32 (y + x % 2 * signBit)

theorem length_compress (q : Point) : (compress q).length = 32 := by
  simp [compress, length_littleEndian]

/-- The even root of `u / v`, when there is one. -/
def sqrtRatio? (u v : Nat) : Option Nat :=
  let v3 := v * v % p * v % p
  let r := u * v3 % p * powMod p (u * (v3 * v3 % p * v % p) % p) ((p - 5) / 8) % p
  let check := v * (r * r % p) % p
  let even (r : Nat) := if r % 2 = 0 then r else p - r
  if check = u then some (even r)
  else if check = (p - u) % p then some (even (r * rootOfMinusOne % p))
  else none

/-- The point of a written form. The y coordinate is taken modulo the prime, and zero may have either
sign. -/
def decompress? (bs : Bytes) : Option Point :=
  let n := ofLittleEndian bs
  let y := n % signBit % p
  let yy := y * y % p
  match sqrtRatio? (subMod p yy 1) ((d * yy + 1) % p) with
  | none => none
  | some x => some (ofAffine (if n / signBit % 2 = 1 then (p - x) % p else x) y)

/-! ### Signatures -/

/-- The highest bit of a scalar, which is always set. -/
def topBit : Nat := Nat.pow 2 254

/-- The scalar of a private key: the first half of the hash with its outer bits fixed. -/
def scalar (secret : Bytes) : Nat :=
  let n := ofLittleEndian ((Sha512.hash secret).take 32)
  n % topBit / 8 * 8 + topBit

/-- The part of the hash of a private key that nonces are derived from. -/
def nonceSeed (secret : Bytes) : Bytes :=
  (Sha512.hash secret).drop 32

def publicKey (secret : Bytes) : Bytes :=
  compress (multiply (scalar secret) base)

theorem length_publicKey (secret : Bytes) : (publicKey secret).length = 32 :=
  length_compress _

def hashToScalar (bs : Bytes) : Nat :=
  ofLittleEndian (Sha512.hash bs) % order

/-- The nonce point and the scalar that answers the challenge. -/
def sign (secret message : Bytes) : Bytes :=
  let key := publicKey secret
  let r := hashToScalar (nonceSeed secret ++ message)
  let point := compress (multiply r base)
  let k := hashToScalar (point ++ key ++ message)
  point ++ littleEndian 32 ((r + k * scalar secret) % order)

theorem length_sign (secret message : Bytes) : (sign secret message).length = 64 := by
  simp [sign, length_compress, length_littleEndian]

/-- Whether a signature verifies under the point of `key`. The scalar must be below the order, and the
nonce point is computed anew and compared in its written form. -/
def verify (key : Bytes) (point : Point) (message signature : Bytes) : Bool :=
  let nonce := signature.take 32
  let s := ofLittleEndian (signature.drop 32)
  let k := hashToScalar (nonce ++ key ++ message)
  s < order && compress (add (multiply s base) (multiply k (negate point))) == nonce

end MoveTx.Curve.Ed25519
