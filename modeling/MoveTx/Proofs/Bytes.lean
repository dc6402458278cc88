import Mathlib.Tactic.Ring
import MoveTx.Bytes

/-!
# Numbers and texts as bytes

Little-endian bytes and numbers of that width are in one-to-one correspondence, and so are texts and
their UTF-8 bytes. Big-endian bytes are little-endian ones in reverse.
-/

namespace MoveTx

/-! ### Little-endian numbers -/

theorem ofLittleEndian_lt (bs : Bytes) : ofLittleEndian bs < 256 ^ bs.length := by
  induction bs with
  | nil => simp [ofLittleEndian]
  | cons b bs ih =>
    have low := UInt8.toNat_lt b
    rw [ofLittleEndian, List.length_cons, Nat.pow_succ]
    omega

theorem ofLittleEndian_littleEndian {width n : Nat} (small : n < 256 ^ width) :
    ofLittleEndian (littleEndian width n) = n := by
  induction width generalizing n with
  | zero =>
    simp only [Nat.pow_zero, Nat.lt_one_iff] at small
    rw [small, littleEndian, ofLittleEndian]
  | succ width ih =>
    have high : n / 256 < 256 ^ width := by
      rw [Nat.pow_succ] at small
      omega
    rw [littleEndian, ofLittleEndian, ih high, UInt8.toNat_ofNat']
    omega

theorem littleEndian_ofLittleEndian (bs : Bytes) :
    littleEndian bs.length (ofLittleEndian bs) = bs := by
  induction bs with
  | nil => rfl
  | cons b bs ih =>
    have low := UInt8.toNat_lt b
    have quotient : (b.toNat + 256 * ofLittleEndian bs) / 256 = ofLittleEndian bs := by omega
    have first : UInt8.ofNat (b.toNat + 256 * ofLittleEndian bs) = b := by
      apply UInt8.toNat_inj.mp
      rw [UInt8.toNat_ofNat']
      omega
    rw [ofLittleEndian, List.length_cons, littleEndian, quotient, first, ih]

/-! ### Big-endian numbers -/

theorem ofBigEndian_reverse (bs : Bytes) : ofBigEndian bs.reverse = ofLittleEndian bs := by
  induction bs with
  | nil => rfl
  | cons b bs ih =>
    have last : ofBigEndian (bs.reverse ++ [b]) = 256 * ofBigEndian bs.reverse + b.toNat :=
      List.foldl_append
    rw [List.reverse_cons, last, ih, ofLittleEndian, Nat.add_comm]

theorem ofBigEndian_bigEndian {width n : Nat} (small : n < 256 ^ width) :
    ofBigEndian (bigEndian width n) = n := by
  rw [bigEndian, ofBigEndian_reverse, ofLittleEndian_littleEndian small]

theorem bigEndian_ofBigEndian (bs : Bytes) : bigEndian bs.length (ofBigEndian bs) = bs := by
  have turned := littleEndian_ofLittleEndian bs.reverse
  rw [List.length_reverse, ← ofBigEndian_reverse, List.reverse_reverse] at turned
  rw [bigEndian, turned, List.reverse_reverse]

/-! ### Strings of fixed length -/

theorem FixedBytes.ofBytes?_toBytes {n : Nat} (b : FixedBytes n) : ofBytes? n b.toBytes = some b :=
  dif_pos b.length_eq

theorem FixedBytes.ofBytes?_eq_some_iff {n : Nat} {bs : Bytes} {b : FixedBytes n} :
    ofBytes? n bs = some b ↔ bs = b.toBytes := by
  constructor
  · intro found
    unfold ofBytes? at found
    split at found
    · obtain rfl := Option.some.inj found
      rfl
    · cases found
  · rintro rfl
    exact ofBytes?_toBytes b

/-! ### Texts -/

/-- The loop behind `ByteArray.toList` puts what is left of the array after what it has collected. -/
theorem toList_loop (bs : ByteArray) (i : Nat) (collected : Bytes) :
    ByteArray.toList.loop bs i collected = collected.reverse ++ bs.data.toList.drop i := by
  fun_induction ByteArray.toList.loop bs i collected with
  | case1 i collected inside ih =>
    have bound : i < bs.data.toList.length := inside
    have first : bs.get! i = bs.data.toList[i] := by
      rw [Array.getElem_toList]
      exact getElem!_pos bs.data i inside
    rw [ih, List.drop_eq_getElem_cons bound, first, List.reverse_cons, List.append_assoc]
    rfl
  | case2 i collected outside =>
    have bound : bs.data.toList.length ≤ i := Nat.le_of_not_lt outside
    rw [List.drop_of_length_le bound, List.append_nil]

theorem toByteArray_toList (bs : ByteArray) : bs.toList.toByteArray = bs := by
  ext1
  rw [List.data_toByteArray, ByteArray.toList, toList_loop]
  rfl

theorem toList_toByteArray (bs : Bytes) : bs.toByteArray.toList = bs := by
  rw [ByteArray.toList, toList_loop, List.data_toByteArray]
  rfl

theorem textOfBytes_iff {bs : Bytes} {s : String} : textOfBytes? bs = some s ↔ bs = textBytes s := by
  unfold textOfBytes? textBytes String.fromUTF8?
  rw [String.toUTF8_eq_toByteArray]
  constructor
  · intro read
    split at read
    · cases read
      exact (toList_toByteArray bs).symm
    · cases read
  · rintro rfl
    rw [toByteArray_toList, dif_pos s.isValidUTF8]
    rfl

theorem length_textBytes (s : String) : (textBytes s).length = s.utf8ByteSize := by
  rw [← List.size_toByteArray, textBytes, toByteArray_toList]
  rfl

end MoveTx
