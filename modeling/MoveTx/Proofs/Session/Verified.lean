import MoveTx.Proofs.Session.Signers
import MoveTx.Proofs.Signing.Acceptance

/-!
# Sessions whose signatures verify

What a session is signed with verifies over the bytes of its transaction, given that the curves accept
what the keys of the keystore sign.
-/

namespace MoveTx
open Step

namespace Session

variable {σ : Type} {s : Session} {data : TransactionData}

/-- Every key in the keystore is one whose curve accepts what it signs of these bytes. -/
def KeysAccept (s : Session) (bs : Bytes) : Prop :=
  ∀ address pair, s.config.keystore.get? address = some pair →
    pair.Accepts (Intent.transaction.digest bs).toBytes

theorem signatureOf_verifies (accept : s.KeysAccept (encode data)) {signer : Address} {text : String}
    (run : s.signatureOf signer data = .ok text) :
    ∃ e, Envelope.ofBase64 text = .ok e ∧ e.verifyTransaction (encode data) = .ok () := by
  obtain ⟨pair, e, found, signed, rfl⟩ := signatureOf_ok run
  obtain ⟨made, same, verifies, -⟩ := (accept signer pair found).signTransactionBytes
  obtain rfl := Except.ok.inj (signed.symm.trans same)
  exact ⟨e, e.ofBase64_base64, verifies⟩

theorem signedWith_verifies (accept : s.KeysAccept (encode data)) {t : SignedTransaction}
    (run : s.signedWith data (s.signatureOf s.sender data) = .ok t) :
    ∀ text ∈ t.signatures,
      ∃ e, Envelope.ofBase64 text = .ok e ∧ e.verifyTransaction (encode data) = .ok () := by
  have verify : List.Forall₂ (fun text signer =>
      (∃ e, Envelope.ofBase64 text = .ok e ∧ e.verifyTransaction (encode data) = .ok ()) ∧
        s.signatureOf signer data = .ok text) t.signatures (signers s.sender s.gasOwner) :=
    (signedWith_signatureOf run).imp fun _ _ signature =>
      ⟨signatureOf_verifies accept signature, signature⟩
  exact ((List.forall₂_and_left _ _).mp verify).1

/-- Signatures made here verify here. A key pair whose curve accepts what it signs makes of any bytes an
envelope that verifies over them, has its public key, and is read back from its own bytes. Of the binary
form of a transaction it signs the hash of the transaction's message under its intent. All signatures of a
session verify over the bytes that its text decodes to. -/
theorem signatures_verify :
    (∀ (k : KeyPair) (b : Bytes), k.Accepts (Intent.transaction.digest b).toBytes →
      ∃ e, k.signTransactionBytes b = .ok e ∧ e.verifyTransaction b = .ok () ∧ e.key = k.publicKey ∧
        Envelope.ofBytes e.bytes = .ok e) ∧
      (∀ (k : KeyPair) (data : TransactionData), k.signTransactionBytes (encode data) =
        (k.sign (Blake2b.hash (Intent.transaction.message data)).toBytes).map
          fun signature => ⟨signature, k.publicKey⟩) ∧
      ∀ {σ : Type} (c : Channel σ) (s t : Online σ) (signed : SignedTransaction),
        sign c s = .ok signed t →
          ∃ data, t.session.finalized = some data ∧
            Base64.decode? signed.transaction = some (encode data) ∧
            (t.session.KeysAccept (encode data) → ∀ text ∈ signed.signatures,
              ∃ e, Envelope.ofBase64 text = .ok e ∧ e.verifyTransaction (encode data) = .ok ()) := by
  refine ⟨?_, ?_, ?_⟩
  · intro k b accepts
    obtain ⟨e, made, verifies, key⟩ := accepts.signTransactionBytes
    exact ⟨e, made, verifies, key, e.ofBytes_bytes⟩
  · intro k data
    rfl
  · intro σ c s t signed run
    obtain ⟨data, finalized, made⟩ := sign_ok run
    refine ⟨data, finalizedData_ok finalized, ?_, ?_⟩
    · rw [signedWith_ok made]
      exact Base64.decode?_encode _
    · exact fun accept => signedWith_verifies accept made

/-! ### One key -/

theorem soleKey_accepts :
    soleKey.Accepts (Intent.transaction.digest (encode lateData)).toBytes := by
  change Curve.Ed25519.Accepts _ _
  unfold Curve.Ed25519.Accepts
  decide +kernel

theorem keyed_get?_eq {address : Address} {pair : KeyPair}
    (found : keyed.keystore.get? address = some pair) : pair = soleKey := by
  obtain ⟨stored, present, rfl⟩ := Option.map_eq_some_iff.mp found
  obtain rfl := List.mem_singleton.mp (List.mem_of_find?_eq_some present)
  rfl

theorem lateSender_verifies :
    ∃ e signed, soleKey.signTransactionBytes (encode lateData) = .ok e ∧
      e.verifyTransaction (encode lateData) = .ok () ∧
      sign twoCoins lateSender = .ok signed lateSender ∧
      ∀ text ∈ signed.signatures,
        ∃ e, Envelope.ofBase64 text = .ok e ∧ e.verifyTransaction (encode lateData) = .ok () := by
  obtain ⟨envelopes, -, sessions⟩ := signatures_verify
  obtain ⟨e, made, verifies, -, -⟩ := envelopes soleKey (encode lateData) soleKey_accepts
  obtain ⟨e', -, run⟩ := soleKey_signs lateSender_finalized rfl rfl rfl
  obtain ⟨data, done, -, signatures⟩ := sessions twoCoins lateSender lateSender _ run
  obtain rfl : data = lateData := Option.some.inj (done.symm.trans rfl)
  refine ⟨e, _, made, verifies, run, signatures ?_⟩
  intro address pair found
  obtain rfl := keyed_get?_eq found
  exact soleKey_accepts

end Session

end MoveTx
