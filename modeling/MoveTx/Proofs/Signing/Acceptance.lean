import MoveTx.Proofs.Bytes
import MoveTx.Proofs.Signing.Envelope

/-!
# Signatures that verify

Given that a curve accepts what its keys sign, and of an ECDSA signature both values of `s`, the envelope
that a key pair makes of a transaction verifies over the same bytes. What is written is the smaller `s`,
and this is what the strict scheme asks for.
-/

namespace MoveTx

namespace Curve

/-- The public key accepts what the private key signs. -/
def Ed25519.Accepts (secret message : Bytes) : Prop :=
  ∃ point ∈ decompress? (publicKey secret),
    verify (publicKey secret) point message (sign secret message) = true

namespace Ecdsa

variable {c : Weierstrass} {d : Nat} {message : Bytes} {g : Signature}

/-- The signature of a message before the smaller value of `s` is chosen. -/
def raw? (c : Weierstrass) (d : Nat) (message : Bytes) : Option Signature := do
  let hash := Sha256.hash message
  let k ← nonce? c d hash
  let point ← c.toAffine? (c.multiply k c.generator)
  let r := point.x % c.n
  let s := invMod c.n k * (ofBigEndian hash + r * d) % c.n
  if r = 0 ∨ s = 0 then none else some ⟨r, s⟩

/-- The public key accepts what the private key signs, and also the other value of `s`. -/
def Accepts (c : Weierstrass) (d : Nat) (message : Bytes) : Prop :=
  ∃ point ∈ c.decompress? (publicKey c d), ∃ g ∈ raw? c d message,
    verify c point message g = true ∧ verify c point message ⟨g.r, c.n - g.s⟩ = true

theorem sign?_eq (c : Weierstrass) (d : Nat) (message : Bytes) :
    sign? c d message = (raw? c d message).map (Signature.normalized c) := by
  unfold sign? raw?
  simp only [Option.bind_eq_bind, Option.map_bind, Function.comp_def]
  refine Option.bind_congr fun k _ => Option.bind_congr fun point _ => ?_
  split <;> rfl

/-- Both numbers of a signature are positive and below the order. -/
structure Signature.InRange (c : Weierstrass) (g : Signature) : Prop where
  r : 0 < g.r ∧ g.r < c.n
  s : 0 < g.s ∧ g.s < c.n

theorem raw?_inRange (positive : 0 < c.n) (made : g ∈ raw? c d message) : g.InRange c := by
  unfold raw? at made
  obtain ⟨k, -, made⟩ := Option.bind_eq_some_iff.mp made
  obtain ⟨point, -, made⟩ := Option.bind_eq_some_iff.mp made
  simp only at made
  split at made
  · cases made
  · rename_i nonzero
    obtain ⟨r, s⟩ := not_or.mp nonzero
    cases made
    exact ⟨⟨Nat.pos_of_ne_zero r, Nat.mod_lt _ positive⟩, Nat.pos_of_ne_zero s, Nat.mod_lt _ positive⟩

theorem Signature.InRange.normalized (inRange : g.InRange c) :
    (g.normalized c).InRange c ∧ (g.normalized c).isHigh c = false := by
  have bound := inRange.s
  unfold Signature.normalized isHigh
  split
  · rename_i high
    rw [decide_eq_true_eq] at high
    refine ⟨⟨inRange.r, ?_⟩, ?_⟩
    · change 0 < c.n - g.s ∧ c.n - g.s < c.n
      omega
    · rw [decide_eq_false_iff_not]
      change ¬ c.n / 2 < c.n - g.s
      omega
  · rename_i low
    exact ⟨inRange, eq_false_of_ne_true low⟩

/-- Numbers below the order are read back from their bytes. -/
theorem Signature.InRange.ofBytes?_bytes (inRange : g.InRange c) (small : c.n ≤ 256 ^ 32) :
    Signature.ofBytes? c g.bytes = some g := by
  have r : ofBigEndian (g.bytes.take 32) = g.r := by
    rw [Signature.bytes, List.take_left' (length_bigEndian 32 g.r),
      ofBigEndian_bigEndian (Nat.lt_of_lt_of_le inRange.r.2 small)]
  have s : ofBigEndian (g.bytes.drop 32) = g.s := by
    rw [Signature.bytes, List.drop_left' (length_bigEndian 32 g.r),
      ofBigEndian_bigEndian (Nat.lt_of_lt_of_le inRange.s.2 small)]
  unfold Signature.ofBytes?
  rw [if_pos g.length_bytes, r, s]
  simp [isPrivateKey, inRange.r.1, inRange.r.2, inRange.s.1, inRange.s.2]

/-- The signature that is written verifies, whichever value of `s` was chosen. -/
theorem Accepts.sign? (accepts : Accepts c d message) (positive : 0 < c.n) :
    ∃ point g, c.decompress? (publicKey c d) = some point ∧ sign? c d message = some g ∧
      verify c point message g = true ∧ g.InRange c ∧ g.isHigh c = false := by
  obtain ⟨point, key, g, made, first, other⟩ := accepts
  obtain ⟨inRange, low⟩ := (raw?_inRange positive made).normalized
  refine ⟨point, g.normalized c, key, ?_, ?_, inRange, low⟩
  · rw [sign?_eq, made]
    rfl
  · unfold Signature.normalized
    split
    · exact other
    · exact first

end Ecdsa

end Curve

namespace KeyPair

variable {k : KeyPair} {message b : Bytes}

/-- The curve of the pair accepts what it signs. -/
def Accepts (k : KeyPair) (message : Bytes) : Prop :=
  match k.scheme.curve? with
  | none => Curve.Ed25519.Accepts k.secret.toBytes message
  | some c => Curve.Ecdsa.Accepts c k.secret.toNat message

theorem publicKey_scheme (k : KeyPair) : k.publicKey.scheme = k.scheme := by
  obtain ⟨scheme, secret, valid⟩ := k
  cases scheme <;> rfl

theorem publicKey_bytes (k : KeyPair) :
    k.publicKey.bytes = match k.scheme.curve? with
      | none => Curve.Ed25519.publicKey k.secret.toBytes
      | some c => Curve.Ecdsa.publicKey c k.secret.toNat := by
  obtain ⟨scheme, secret, valid⟩ := k
  cases scheme <;> rfl

theorem curve?_order {s : KeyScheme} {c : Curve.Weierstrass} (found : s.curve? = some c) :
    0 < c.n ∧ c.n ≤ 256 ^ 32 := by
  cases s with
  | ed25519 => cases found
  | secp256k1 | secp256r1 =>
    obtain rfl := Option.some.inj found
    decide

/-- What a key pair signs is accepted by its public key. -/
theorem Accepts.verify (accepts : k.Accepts message) :
    ∃ signature, k.sign message = .ok signature ∧
      k.publicKey.verify message signature.toBytes = .ok () := by
  have bytes := k.publicKey_bytes
  unfold Accepts at accepts
  unfold sign PublicKey.verify
  rw [publicKey_scheme]
  cases curve : k.scheme.curve? with
  | none =>
    simp only [curve] at accepts bytes
    obtain ⟨point, key, verifies⟩ := accepts
    refine ⟨_, rfl, ?_⟩
    simp only [PublicKey.verifyEdwards]
    rw [if_neg (not_not.mpr (Curve.Ed25519.length_sign _ _)), bytes]
    simp only [Option.mem_def.mp key, verifies, if_true]
  | some c =>
    simp only [curve] at accepts bytes
    obtain ⟨positive, small⟩ := curve?_order curve
    obtain ⟨point, g, key, made, verifies, inRange, low⟩ := accepts.sign? positive
    refine ⟨⟨g.bytes, g.length_bytes⟩, by simp only [made], ?_⟩
    simp only [PublicKey.verifyEcdsa, bytes, key, inRange.ofBytes?_bytes small, low, Bool.and_false,
      Bool.false_eq_true, if_false, verifies, if_true]

/-- An envelope of a transaction verifies over the bytes that were signed. -/
theorem Accepts.signTransactionBytes (accepts : k.Accepts (Intent.transaction.digest b).toBytes) :
    ∃ e, k.signTransactionBytes b = .ok e ∧ e.verifyTransaction b = .ok () ∧ e.key = k.publicKey := by
  obtain ⟨signature, signed, verifies⟩ := accepts.verify
  refine ⟨⟨signature, k.publicKey⟩, ?_, verifies, rfl⟩
  unfold KeyPair.signTransactionBytes signWithIntent
  rw [signed]
  rfl

end KeyPair

end MoveTx
