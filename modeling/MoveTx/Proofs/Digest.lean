import MoveTx.Digest
import MoveTx.Proofs.Bytes
import MoveTx.Proofs.Text.Base58

/-!
# Digests as texts

A digest has one text, which is its number in base 58 behind a `1` for each zero byte in front. No other text
is read, so that digests are the same exactly when their texts are.
-/

namespace MoveTx.Digest

theorem text_ne_empty (d : Digest) : d.text ≠ "" := by
  intro empty
  have sized : d.bytes.length = 32 := d.raw.length_eq
  rw [Base58.encode_eq_empty_iff.mp empty] at sized
  cases sized

/-- The digest of the bytes, when there are 32 of them. -/
theorem parse_encode (bs : Bytes) :
    parse (Base58.encode bs) =
      if bs = [] then .error (.digest "" .empty)
      else match FixedBytes.ofBytes? 32 bs with
        | some raw => .ok ⟨raw⟩
        | none => .error (.digest (Base58.encode bs) .notThirtyTwoBytes) := by
  rw [parse, Base58.decode?_encode]
  by_cases none : bs = []
  · subst none
    rw [Base58.encode_eq_empty_iff.mpr rfl]
    rfl
  · have some : (Base58.encode bs).isEmpty = false := by
      rw [String.isEmpty_eq_false_iff]
      exact mt Base58.encode_eq_empty_iff.mp none
    rw [some, if_neg none]
    dsimp only
    cases FixedBytes.ofBytes? 32 bs <;> rfl

theorem parse_text (d : Digest) : parse d.text = .ok d := by
  have some : d.bytes ≠ [] := mt Base58.encode_eq_empty_iff.mpr d.text_ne_empty
  rw [text, parse_encode, if_neg some, bytes, FixedBytes.ofBytes?_toBytes]

theorem parse_ok_iff {s : String} {d : Digest} : parse s = .ok d ↔ d.text = s := by
  constructor
  · intro read
    unfold parse at read
    split at read
    · cases read
    split at read
    · cases read
    rename_i bs decoded
    split at read
    · cases read
    rename_i raw found
    obtain rfl := Except.ok.inj read
    rw [Base58.decode?_eq_some_iff.mp decoded, FixedBytes.ofBytes?_eq_some_iff.mp found]
    rfl
  · rintro rfl
    exact d.parse_text

theorem error_of_parse {s : String} {e : TextError} (refused : parse s = .error e) :
    ∃ fault, e = .digest s fault := by
  unfold parse at refused
  split at refused
  · exact ⟨.empty, (Except.error.inj refused).symm⟩
  split at refused
  · exact ⟨.notBase58, (Except.error.inj refused).symm⟩
  split at refused
  · exact ⟨.notThirtyTwoBytes, (Except.error.inj refused).symm⟩
  · cases refused

theorem text_eq_iff {s : String} {d : Digest} : d.text = s ↔ Base58.IsNumeral s.toList d.bytes := by
  rw [Base58.isNumeral_iff, text, Base58.encode, ← String.toList_inj, String.toList_ofList, eq_comm]

/-- Digests and their texts are in one-to-one correspondence. The text is read as the digest, it is the only
one that is, and it is the number of the digest in base 58 with as many leading zeros. Any other text is
refused, also one that stands for fewer or more bytes. -/
theorem text_bijective :
    (∀ d : Digest, parse d.text = .ok d) ∧
      (∀ (s : String) (d : Digest), parse s = .ok d ↔ d.text = s) ∧
      (∀ (s : String) (d : Digest), d.text = s ↔ Base58.IsNumeral s.toList d.bytes) ∧
      (∀ s : String, (∀ d : Digest, d.text ≠ s) → ∃ fault, parse s = .error (.digest s fault)) ∧
      ∀ bs : Bytes, bs.length ≠ 32 → parse (Base58.encode bs) =
        .error (.digest (Base58.encode bs) (if bs = [] then .empty else .notThirtyTwoBytes)) := by
  refine ⟨parse_text, fun s d => parse_ok_iff, fun s d => text_eq_iff, fun s other => ?_, fun bs size => ?_⟩
  · cases run : parse s with
    | ok d => exact (other d (parse_ok_iff.mp run)).elim
    | error e =>
      obtain ⟨fault, rfl⟩ := error_of_parse run
      exact ⟨fault, rfl⟩
  · rw [parse_encode, FixedBytes.ofBytes?, dif_neg size]
    split
    · rename_i none
      rw [Base58.encode_eq_empty_iff.mpr none]
    · rfl

/-- The text of one byte is base 58, but no digest. -/
theorem byteText_refused : parse "2g" = .error (.digest "2g" .notThirtyTwoBytes) := by
  obtain ⟨-, -, -, -, lengths⟩ := text_bijective
  have byte : Base58.encode [0x61] = "2g" := by cbv
  rw [← byte]
  exact lengths [0x61] (by decide)

end MoveTx.Digest
