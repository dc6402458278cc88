/-!
# Arithmetic modulo a prime

Powers by repeated squaring, and with them the inverse. Differences are taken without leaving the
natural numbers.
-/

namespace MoveTx.Curve

/-- The binary digits of `n`, most significant first. -/
def bits (n : Nat) : List Bool :=
  if n = 0 then [] else ((List.range (n.log2 + 1)).map n.testBit).reverse

/-- `b ^ e` modulo `m`. -/
def powMod (m b e : Nat) : Nat :=
  (bits e).foldl
    (fun acc bit =>
      let square := acc * acc % m
      if bit then square * b % m else square)
    (1 % m)

/-- The inverse modulo a prime, and zero for zero. -/
def invMod (p a : Nat) : Nat :=
  powMod p (a % p) (p - 2)

/-- `a - b` modulo `p`, for `b` below `p`. -/
def subMod (p a b : Nat) : Nat :=
  (a + (p - b)) % p

end MoveTx.Curve
