import MoveTx.Proofs.Bytes
import MoveTx.Proofs.Text.Base64
import MoveTx.Signing.Envelope

/-!
# Reading signatures back

An envelope is read back from its bytes and from its text, so that whoever holds the text knows whose
signature it is. Nothing else is read: `codec_exact` says which bytes are an envelope, and that they are
the flag, the signature and the key of what is read.
-/

namespace MoveTx

theorem SignatureScheme.ofFlag?_flag (s : SignatureScheme) : ofFlag? s.flag = some s := by
  cases s with
  | multiSig => rfl
  | single s => cases s <;> rfl

theorem SignatureScheme.ofFlag?_eq_some_iff {flag : UInt8} {s : SignatureScheme} :
    ofFlag? flag = some s ↔ flag = s.flag := by
  constructor
  · intro found
    unfold ofFlag? at found
    split at found
    · cases found; assumption
    split at found
    · cases found; assumption
    split at found
    · cases found; assumption
    split at found
    · cases found; assumption
    · cases found
  · rintro rfl
    exact ofFlag?_flag s

theorem SignatureScheme.flag_inj {s t : SignatureScheme} (same : s.flag = t.flag) : s = t := by
  have first := ofFlag?_flag s
  rw [same, ofFlag?_flag t] at first
  exact (Option.some.inj first).symm

theorem PublicKey.ofBytes_bytes (k : PublicKey) : ofBytes (.single k.scheme) k.bytes = .ok k :=
  dif_pos k.length_eq

theorem PublicKey.ofBytes_single_ok_iff {s : KeyScheme} {bs : Bytes} {k : PublicKey} :
    ofBytes (.single s) bs = .ok k ↔ s = k.scheme ∧ bs = k.bytes := by
  constructor
  · intro read
    simp only [ofBytes] at read
    split at read
    · obtain rfl := Except.ok.inj read
      exact ⟨rfl, rfl⟩
    · cases read
  · rintro ⟨rfl, rfl⟩
    exact ofBytes_bytes k

namespace Envelope

theorem ofBytes_bytes (e : Envelope) : ofBytes e.bytes = .ok e := by
  have scheme : SignatureScheme.ofFlag? e.key.scheme.flag = some (.single e.key.scheme) :=
    SignatureScheme.ofFlag?_flag (.single e.key.scheme)
  have signature : (e.signature.toBytes ++ e.key.bytes).take 64 = e.signature.toBytes :=
    List.take_left' e.signature.length_eq
  have key : (e.signature.toBytes ++ e.key.bytes).drop 64 = e.key.bytes :=
    List.drop_left' e.signature.length_eq
  unfold bytes
  rw [List.cons_append, ofBytes]
  simp only [scheme, signature, key, FixedBytes.ofBytes?_toBytes, PublicKey.ofBytes_bytes]

theorem ofBase64_base64 (e : Envelope) : ofBase64 e.base64 = .ok e := by
  unfold ofBase64 base64
  rw [Base64.decode?_encode]
  exact ofBytes_bytes e

theorem ofBytes_ok_iff {bs : Bytes} {e : Envelope} : ofBytes bs = .ok e ↔ bs = e.bytes := by
  constructor
  · intro read
    unfold ofBytes at read
    split at read
    · cases read
    rename_i flag rest
    split at read
    · cases read
    · cases read
    rename_i s known
    split at read
    · rename_i signature key first second
      obtain rfl := Except.ok.inj read
      obtain ⟨rfl, tail⟩ := PublicKey.ofBytes_single_ok_iff.mp second
      have head := FixedBytes.ofBytes?_eq_some_iff.mp first
      rw [bytes, SignatureScheme.ofFlag?_eq_some_iff.mp known, List.cons_append, ← head, ← tail,
        List.take_append_drop]
      rfl
    · cases read
  · rintro rfl
    exact ofBytes_bytes e

theorem ofBase64_ok_iff {s : String} {e : Envelope} : ofBase64 s = .ok e ↔ s = e.base64 := by
  constructor
  · intro read
    unfold ofBase64 at read
    split at read
    · cases read
    · rename_i bs decoded
      rw [base64, ← ofBytes_ok_iff.mp read]
      exact Base64.decode?_eq_some_iff.mp decoded
  · rintro rfl
    exact ofBase64_base64 e

theorem length_bytes (e : Envelope) : e.bytes.length = 1 + 64 + e.key.scheme.publicKeyLength := by
  rw [bytes, List.cons_append, List.length_cons, List.length_append, e.signature.length_eq,
    e.key.length_eq]
  omega

/-- Bytes of the right length behind a flag are an envelope, whatever they are. -/
theorem exists_bytes_eq {s : KeyScheme} {bs : Bytes} (flag : bs.head? = some s.flag)
    (length : bs.length = 1 + 64 + s.publicKeyLength) : ∃ e : Envelope, bs = e.bytes := by
  cases bs with
  | nil => cases flag
  | cons first rest =>
    obtain rfl := Option.some.inj flag
    rw [List.length_cons] at length
    have signature : (rest.take 64).length = 64 := by
      rw [List.length_take]
      omega
    have key : (rest.drop 64).length = s.publicKeyLength := by
      rw [List.length_drop]
      omega
    refine ⟨⟨⟨rest.take 64, signature⟩, ⟨s, rest.drop 64, key⟩⟩, ?_⟩
    rw [bytes, List.cons_append, List.take_append_drop]

/-- The flag of a scheme with a single key stands before the 64 bytes of a signature and the bytes of a
key, 97 or 98 in all, and all bytes of such a shape are an envelope. What is read is what was written,
from bytes and from text, and is written as what was read. -/
theorem codec_exact :
    (∀ (signature : Bytes64) (key : PublicKey),
      ofBytes (key.scheme.flag :: signature.toBytes ++ key.bytes) = .ok ⟨signature, key⟩ ∧
        (Envelope.mk signature key).bytes = key.scheme.flag :: signature.toBytes ++ key.bytes) ∧
      (∀ bs : Bytes, (∃ e, ofBytes bs = .ok e) ↔
        bs.head? = some 0 ∧ bs.length = 1 + 64 + 32 ∨ bs.head? = some 1 ∧ bs.length = 1 + 64 + 33 ∨
          bs.head? = some 2 ∧ bs.length = 1 + 64 + 33) ∧
      (∀ (bs : Bytes) (e : Envelope), ofBytes bs = .ok e ↔
        e.bytes = bs ∧ bs = e.key.scheme.flag :: e.signature.toBytes ++ e.key.bytes) ∧
      ∀ (s : String) (e : Envelope), ofBase64 s = .ok e ↔ e.base64 = s := by
  refine ⟨fun signature key => ⟨ofBytes_bytes ⟨signature, key⟩, rfl⟩, fun bs => ?_, fun bs e => ?_,
    fun s e => ?_⟩
  · constructor
    · rintro ⟨e, read⟩
      obtain rfl := ofBytes_ok_iff.mp read
      rw [length_bytes]
      cases scheme : e.key.scheme with
      | ed25519 => exact Or.inl ⟨by rw [bytes, scheme]; rfl, rfl⟩
      | secp256k1 => exact Or.inr (Or.inl ⟨by rw [bytes, scheme]; rfl, rfl⟩)
      | secp256r1 => exact Or.inr (Or.inr ⟨by rw [bytes, scheme]; rfl, rfl⟩)
    · rintro (⟨flag, length⟩ | ⟨flag, length⟩ | ⟨flag, length⟩)
      · obtain ⟨e, rfl⟩ := exists_bytes_eq (s := .ed25519) flag length
        exact ⟨e, ofBytes_bytes e⟩
      · obtain ⟨e, rfl⟩ := exists_bytes_eq (s := .secp256k1) flag length
        exact ⟨e, ofBytes_bytes e⟩
      · obtain ⟨e, rfl⟩ := exists_bytes_eq (s := .secp256r1) flag length
        exact ⟨e, ofBytes_bytes e⟩
  · rw [ofBytes_ok_iff]
    exact ⟨fun read => ⟨read.symm, read⟩, fun read => read.1.symm⟩
  · rw [ofBase64_ok_iff, eq_comm]

end Envelope

/-- A signature carries the public key of the pair that made it. -/
theorem KeyPair.signTransaction_key {k : KeyPair} {data : TransactionData} {e : Envelope}
    (signed : k.signTransaction data = .ok e) : e.key = k.publicKey := by
  unfold signTransaction signTransactionBytes signWithIntent at signed
  cases raw : k.sign (Intent.transaction.digest (encode data)).toBytes with
  | error fault =>
    rw [raw] at signed
    cases signed
  | ok signature =>
    rw [raw] at signed
    obtain rfl := Except.ok.inj signed
    rfl

end MoveTx
