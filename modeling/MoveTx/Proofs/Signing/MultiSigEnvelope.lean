import MoveTx.Proofs.Signing.Assembly

/-!
# Binary form of assembled signatures

An envelope has no length of its own: the bitmap says how many signatures follow, and the tags of the
members say how long the key is. An envelope is read from its own bytes and its own text and from no others.
-/

namespace MoveTx
open Step

namespace MultiSigEnvelope

/-- As many signatures as set bits, each bit the place of a member. -/
structure Fits (e : MultiSigEnvelope) : Prop where
  length_eq : e.signatures.length = (setBits e.bitmap).length
  bits_lt : ∀ i ∈ setBits e.bitmap, i < e.key.members.length

/-! ### Reading -/

/-- The written form of the parts of an envelope after its flag. -/
def partsBytes (bitmap : UInt16) (signatures : List Bytes64) (members : List Member)
    (threshold : UInt16) : Bytes :=
  encode bitmap ++ (signatures.flatMap FixedBytes.toBytes ++ MultiSigKey.partsBytes members threshold)

theorem bytes_eq (e : MultiSigEnvelope) :
    e.bytes = SignatureScheme.multiSig.flag ::
      partsBytes e.bitmap e.signatures e.key.members e.key.threshold :=
  (List.append_assoc _ _ _ : (SignatureScheme.multiSig.flag :: encode e.bitmap) ++ _ ++ _ = _)

theorem partsReader_ok_iff {bitmap : UInt16} {signatures : List Bytes64} {members : List Member}
    {threshold : UInt16} {bs rest : Bytes} :
    partsReader bs = .ok (bitmap, signatures, members, threshold) rest ↔
      (signatures.length = (setBits bitmap).length ∧ members.length ≤ maxSequenceLength) ∧ rest = [] ∧
        bs = partsBytes bitmap signatures members threshold := by
  have reads : ∀ bs (s : Bytes64) rest, Reader.fixed 64 bs = .ok s rest ↔
      True ∧ bs = s.toBytes ++ rest := fun _ _ _ => Reader.fixed_ok_iff.trans (and_iff_right trivial).symm
  rw [partsBytes]
  refine decode_bind_iff.trans ?_
  simp only [bind_ok_iff, Reader.times_ok_iff reads, pure_ok_iff, Prod.exists,
    MultiSigKey.partsReader_ok_iff, Reader.finish_ok_iff]
  constructor
  · rintro ⟨_, _, -, rfl, _, _, ⟨counted, -, rfl⟩, _, _, _, ⟨short, rfl⟩, _, _, ⟨rfl, rfl⟩, same, rfl⟩
    cases same
    exact ⟨⟨counted, short⟩, rfl, by rw [List.append_nil]⟩
  · rintro ⟨⟨counted, short⟩, rfl, rfl⟩
    exact ⟨bitmap, _, trivial, rfl, signatures, _, ⟨counted, fun _ _ => trivial, rfl⟩, members, threshold,
      _, ⟨short, by rw [List.append_nil]⟩, (), _, ⟨rfl, rfl⟩, rfl, rfl⟩

theorem ofBytes_ok_iff {bs : Bytes} {e : MultiSigEnvelope} :
    ofBytes bs = .ok e ↔ e.Fits ∧ bs = e.bytes := by
  rw [bytes_eq]
  constructor
  · intro run
    match bs with
    | [] => cases run
    | flag :: rest =>
      rw [ofBytes] at run
      split at run
      · cases run
      rename_i known
      split at run
      · cases run
      rename_i bitmap signatures members threshold read
      obtain ⟨_, parts⟩ := Reader.result_ok_iff.mp read
      obtain ⟨⟨counted, -⟩, -, rfl⟩ := partsReader_ok_iff.mp parts
      obtain ⟨key, built, made⟩ := except_bind_ok_iff.mp run
      obtain ⟨rfl, rfl⟩ := MultiSigKey.build_ok_iff.mp built
      split at made
      · cases made
      rename_i narrow
      obtain rfl := Except.ok.inj made
      refine ⟨⟨counted, setBits_lt_iff.mpr (Nat.lt_of_not_le narrow)⟩, ?_⟩
      rw [Decidable.not_not.mp known]
  · rintro ⟨fits, rfl⟩
    have short : e.key.members.length ≤ maxSequenceLength :=
      Nat.le_trans e.key.sound.length_le (by decide)
    have read : Reader.result partsReader
        (partsBytes e.bitmap e.signatures e.key.members e.key.threshold) =
          .ok (e.bitmap, e.signatures, e.key.members, e.key.threshold) :=
      Reader.result_ok_iff.mpr ⟨[], partsReader_ok_iff.mpr ⟨⟨fits.length_eq, short⟩, rfl, rfl⟩⟩
    have narrow : ¬ Nat.pow 2 e.key.members.length ≤ e.bitmap.toNat :=
      Nat.not_le.mpr (setBits_lt_iff.mp fits.bits_lt)
    rw [ofBytes, if_neg (not_not.mpr rfl), read]
    refine except_bind_ok_iff.mpr ⟨e.key, MultiSigKey.build_ok_iff.mpr ⟨rfl, rfl⟩, ?_⟩
    rw [if_neg narrow]
    rfl

theorem ofBase64_ok_iff {s : String} {e : MultiSigEnvelope} :
    ofBase64 s = .ok e ↔ e.Fits ∧ s = e.base64 := by
  unfold ofBase64 base64
  constructor
  · intro run
    split at run
    · cases run
    · rename_i bs read
      obtain ⟨fits, rfl⟩ := ofBytes_ok_iff.mp run
      exact ⟨fits, Base64.decode?_eq_some_iff.mp read⟩
  · rintro ⟨fits, rfl⟩
    rw [Base64.decode?_encode]
    exact ofBytes_ok_iff.mpr ⟨fits, rfl⟩

/-! ### Assembled and read envelopes -/

theorem fits_of_combine {k : MultiSigKey} {es : List Envelope} {e : MultiSigEnvelope}
    (run : k.combine es = .ok e) : e.Fits := by
  obtain ⟨admits, rfl⟩ := MultiSigKey.combine_ok_iff.mp run
  have carries := k.assembled_carries admits.distinct
  refine ⟨?_, fun i set => ?_⟩
  · rw [← carries.signers_eq]
    exact carries.signatures.length_eq.symm
  · obtain ⟨s, signed⟩ := (carries.bit_iff i).mp (mem_setBits.mp set)
    exact signed.lt

/-- The envelopes a program can have: assembled from signatures, or read. -/
inductive Obtained (e : MultiSigEnvelope) : Prop
  | assembled {k : MultiSigKey} {es : List Envelope} (run : k.combine es = .ok e)
  | read {bs : Bytes} (run : ofBytes bs = .ok e)
  | readText {s : String} (run : ofBase64 s = .ok e)

theorem Obtained.fits {e : MultiSigEnvelope} (obtained : e.Obtained) : e.Fits := by
  cases obtained with
  | assembled run => exact fits_of_combine run
  | read run => exact (ofBytes_ok_iff.mp run).1
  | readText run => exact (ofBase64_ok_iff.mp run).1

/-- An envelope that is assembled or read has a signature for each set bit and sets no bit past its
members. It is read back from its bytes and its text, and what is read as some envelope is what that
envelope is written as. -/
theorem envelope_canonical {e : MultiSigEnvelope} (obtained : e.Obtained) :
    e.signatures.length = (setBits e.bitmap).length ∧
      (∀ i, e.bitmap.toNat.testBit i = true → i < e.key.members.length) ∧
      (ofBytes e.bytes = .ok e ∧ ∀ bs : Bytes, ofBytes bs = .ok e → e.bytes = bs) ∧
      (ofBase64 e.base64 = .ok e ∧ ∀ s : String, ofBase64 s = .ok e → e.base64 = s) := by
  have fits := obtained.fits
  refine ⟨fits.length_eq, fun i set => fits.bits_lt i (mem_setBits.mpr set), ⟨?_, fun bs read => ?_⟩, ?_,
    fun s read => ?_⟩
  · exact ofBytes_ok_iff.mpr ⟨fits, rfl⟩
  · exact (ofBytes_ok_iff.mp read).2.symm
  · exact ofBase64_ok_iff.mpr ⟨fits, rfl⟩
  · exact (ofBase64_ok_iff.mp read).2.symm

/-- `trio` signed by its first and its last member. -/
def signedTrio : MultiSigEnvelope :=
  ⟨5, [MultiSigKey.byFirst.signature, MultiSigKey.byLast.signature], MultiSigKey.trio⟩

theorem signedTrio_canonical :
    MultiSigKey.trio.combine [MultiSigKey.byLast, MultiSigKey.byFirst] = .ok signedTrio ∧
      ofBytes signedTrio.bytes = .ok signedTrio ∧
      ∀ s : String, ofBase64 s = .ok signedTrio → signedTrio.base64 = s :=
  have run : MultiSigKey.trio.combine [MultiSigKey.byLast, MultiSigKey.byFirst] = .ok signedTrio := rfl
  have law := envelope_canonical (.assembled run)
  ⟨run, law.2.2.1.1, law.2.2.2.2⟩

end MultiSigEnvelope

end MoveTx
