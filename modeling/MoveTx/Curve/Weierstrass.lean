import MoveTx.Bytes
import MoveTx.Curve.Modular

/-!
# Curves in short Weierstrass form

A curve `y² = x³ + a x + b` over a prime field with a generator of prime order. Points are computed
with in Jacobian coordinates, where `(X, Y, Z)` stands for `(X / Z², Y / Z³)` and `Z = 0` for the point
at infinity. Both curves here have a field prime that leaves 3 when divided by 4, so square roots are
powers.
-/

namespace MoveTx.Curve

/-- How a point is recovered from its x coordinate alone. -/
inductive CompactRule
  | evenY
  | smallerY
  deriving DecidableEq

structure Weierstrass where
  p : Nat
  a : Nat
  b : Nat
  /-- The order of the generator. -/
  n : Nat
  gx : Nat
  gy : Nat
  compactRule : CompactRule

/-- A point other than the one at infinity. -/
structure AffinePoint where
  x : Nat
  y : Nat
  deriving DecidableEq

structure JacobianPoint where
  x : Nat
  y : Nat
  z : Nat

namespace Weierstrass

def secp256k1 : Weierstrass where
  p := 0xfffffffffffffffffffffffffffffffffffffffffffffffffffffffefffffc2f
  a := 0
  b := 7
  n := 0xfffffffffffffffffffffffffffffffebaaedce6af48a03bbfd25e8cd0364141
  gx := 0x79be667ef9dcbbac55a06295ce870b07029bfcdb2dce28d959f2815b16f81798
  gy := 0x483ada7726a3c4655da4fbfc0e1108a8fd17b448a68554199c47d08ffb10d4b8
  compactRule := .evenY

def secp256r1 : Weierstrass where
  p := 0xffffffff00000001000000000000000000000000ffffffffffffffffffffffff
  a := 0xffffffff00000001000000000000000000000000fffffffffffffffffffffffc
  b := 0x5ac635d8aa3a93e7b3ebbd55769886bc651d06b0cc53b0f63bce3c3e27d2604b
  n := 0xffffffff00000000ffffffffffffffffbce6faada7179e84f3b9cac2fc632551
  gx := 0x6b17d1f2e12c4247f8bce6e563a440f277037d812deb33a0f4a13945d898c296
  gy := 0x4fe342e2fe1a7f9b8ee7eb4a7c0f9e162bce33576b315ececbb6406837bf51f5
  compactRule := .smallerY

/-! ### The group -/

def infinity : JacobianPoint := ⟨1, 1, 0⟩

def ofAffine (q : AffinePoint) : JacobianPoint := ⟨q.x, q.y, 1⟩

def toAffine? (c : Weierstrass) (q : JacobianPoint) : Option AffinePoint :=
  if q.z % c.p = 0 then none
  else
    let inverse := invMod c.p q.z
    let square := inverse * inverse % c.p
    some ⟨q.x * square % c.p, q.y * (square * inverse % c.p) % c.p⟩

def double (c : Weierstrass) (q : JacobianPoint) : JacobianPoint :=
  if q.z = 0 ∨ q.y = 0 then infinity
  else
    let p := c.p
    let yy := q.y * q.y % p
    let s := 4 * q.x * yy % p
    let zz := q.z * q.z % p
    let m := (3 * q.x * q.x + c.a * (zz * zz % p)) % p
    let x := subMod p (m * m) (2 * s % p)
    ⟨x, subMod p (m * subMod p s x) (8 * yy * yy % p), 2 * q.y * q.z % p⟩

def add (c : Weierstrass) (q r : JacobianPoint) : JacobianPoint :=
  if q.z = 0 then r
  else if r.z = 0 then q
  else
    let p := c.p
    let zz1 := q.z * q.z % p
    let zz2 := r.z * r.z % p
    let u1 := q.x * zz2 % p
    let u2 := r.x * zz1 % p
    let s1 := q.y * (zz2 * r.z % p) % p
    let s2 := r.y * (zz1 * q.z % p) % p
    if u1 = u2 then if s1 = s2 then c.double q else infinity
    else
      let h := subMod p u2 u1
      let k := subMod p s2 s1
      let hh := h * h % p
      let hhh := h * hh % p
      let v := u1 * hh % p
      let x := subMod p (subMod p (k * k) hhh) (2 * v % p)
      ⟨x, subMod p (k * subMod p v x) (s1 * hhh % p), h * (q.z * r.z % p) % p⟩

/-- The point `q` added up `k` times. -/
def multiply (c : Weierstrass) (k : Nat) (q : JacobianPoint) : JacobianPoint :=
  (bits k).foldl
    (fun acc bit =>
      let doubled := c.double acc
      if bit then c.add doubled q else doubled)
    infinity

def generator (c : Weierstrass) : JacobianPoint := ⟨c.gx, c.gy, 1⟩

/-! ### Points as bytes -/

/-- The y coordinates of the points above `x`: an even one and an odd one. -/
def liftX? (c : Weierstrass) (x : Nat) : Option (Nat × Nat) :=
  if c.p ≤ x then none
  else
    let square := (x * x * x + c.a * x + c.b) % c.p
    let root := powMod c.p square ((c.p + 1) / 4)
    if root * root % c.p = square then
      let other := (c.p - root) % c.p
      if root % 2 = 0 then some (root, other) else some (other, root)
    else none

/-- The parity of `y` in the first byte, and `x`. -/
def compress (q : AffinePoint) : Bytes :=
  UInt8.ofNat (2 + q.y % 2) :: bigEndian 32 q.x

theorem length_compress (q : AffinePoint) : (compress q).length = 33 := by
  simp [compress, length_bigEndian]

/-- Reads a point from a leading byte 2 or 3 for the parity of `y`, or 5 for the rule of the curve, and
the 32 bytes of `x`. -/
def decompress? (c : Weierstrass) : Bytes → Option AffinePoint
  | [] => none
  | tag :: rest =>
    if rest.length = 32 then
      let x := ofBigEndian rest
      match c.liftX? x with
      | none => none
      | some (even, odd) =>
        if tag = 2 then some ⟨x, even⟩
        else if tag = 3 then some ⟨x, odd⟩
        else if tag = 5 then
          match c.compactRule with
          | .evenY => some ⟨x, even⟩
          | .smallerY => some ⟨x, min even odd⟩
        else none
    else none

end Weierstrass

end MoveTx.Curve
