import Mathlib.Data.List.Sort
import MoveTx.Address
import MoveTx.Proofs.Bytes

/-!
# Byte order

The order of bytes, a proper beginning first, is the lexicographic one. Texts are in the same order as
their UTF-8 bytes. Addresses are in a total order by their bytes, and sets of them are kept ascending.
-/

namespace MoveTx

theorem bytesBefore_iff {xs ys : Bytes} : bytesBefore xs ys = true ↔ xs < ys := by
  fun_induction bytesBefore xs ys with
  | case1 => simp
  | case2 y ys => simp
  | case3 x xs => simp
  | case4 x xs y ys ih =>
    rw [List.cons_lt_cons_iff, Bool.or_eq_true, Bool.and_eq_true, decide_eq_true_iff, beq_iff_eq, ih]

/-- Lists that ascend by the bytes of their members are the same when they have the same members. -/
theorem ascending_ext {α : Type} {key : α → Bytes} {xs ys : List α}
    (first : xs.Pairwise fun a b => key a < key b) (second : ys.Pairwise fun a b => key a < key b)
    (same : ∀ a, a ∈ xs ↔ a ∈ ys) : xs = ys := by
  have : Std.Irrefl fun a b => key a < key b := ⟨fun a => List.lt_irrefl (key a)⟩
  have : Std.Antisymm fun a b => key a < key b :=
    ⟨fun a b less greater => absurd greater (List.lt_asymm less)⟩
  exact first.eq_of_mem_iff second same

/-! ### Texts -/

theorem textBytes_eq (s : String) : textBytes s = s.toList.flatMap String.utf8EncodeChar := by
  rw [textBytes, String.toUTF8_eq_toByteArray, ← String.utf8Encode_toList]
  exact toList_toByteArray _

/-- A smaller character has smaller bytes, whatever follows. -/
theorem utf8EncodeChar_lt {c d : Char} (less : c < d) (xs ys : Bytes) :
    String.utf8EncodeChar c ++ xs < String.utf8EncodeChar d ++ ys := by
  have order : c.val.toNat < d.val.toNat := UInt32.lt_iff_toNat_lt.mp less
  have valid : d.val.toNat < 0x110000 := by
    rcases d.valid with low | ⟨-, high⟩
    · omega
    · exact high
  have two (n : Nat) : (n % 32 + 192) % 256 = n % 32 + 192 := by omega
  have three (n : Nat) : (n % 16 + 224) % 256 = n % 16 + 224 := by omega
  have four (n : Nat) : (n % 8 + 240) % 256 = n % 8 + 240 := by omega
  have later (n : Nat) : (n % 64 + 128) % 256 = n % 64 + 128 := by omega
  have groups (n : Nat) : n / 4096 = n / 64 / 64 ∧ n / 262144 = n / 64 / 64 / 64 := by omega
  simp only [String.utf8EncodeChar, groups]
  -- The first bytes tell forms of different lengths apart, the groups of six bits those of one length.
  split_ifs <;>
    simp only [List.cons_append, List.nil_append, List.cons_lt_cons_iff, UInt8.lt_iff_toNat_lt,
      ← UInt8.toNat_inj, UInt8.toNat_ofNat', two, three, four, later] <;> omega

theorem flatMap_utf8EncodeChar_lt {cs ds : List Char} (less : cs < ds) :
    cs.flatMap String.utf8EncodeChar < ds.flatMap String.utf8EncodeChar := by
  induction less with
  | @nil d ds =>
    obtain ⟨b, bs, form⟩ := List.exists_cons_of_ne_nil (String.utf8EncodeChar_ne_nil (c := d))
    rw [List.flatMap_cons, form]
    exact .nil
  | rel less => exact utf8EncodeChar_lt less _ _
  | cons _ ih => exact List.append_left_lt ih

theorem textBytes_lt_iff {s t : String} : textBytes s < textBytes t ↔ s < t := by
  have forwards : ∀ {s t : String}, s < t → textBytes s < textBytes t := by
    intro s t less
    rw [textBytes_eq, textBytes_eq]
    exact flatMap_utf8EncodeChar_lt less
  refine ⟨fun less => ?_, forwards⟩
  by_contra notLess
  rcases Decidable.em (t < s) with greater | notGreater
  · exact List.lt_asymm less (forwards greater)
  · have same := String.le_antisymm (String.not_lt.mp notGreater) (String.not_lt.mp notLess)
    exact List.lt_irrefl _ (same ▸ less)

/-! ### Addresses -/

namespace Address

variable {a b c : Address}

theorem before_iff : a.before b = true ↔ a.bytes < b.bytes :=
  bytesBefore_iff

theorem bytes_inj : a.bytes = b.bytes ↔ a = b := by
  obtain ⟨⟨as, -⟩⟩ := a
  obtain ⟨⟨bs, -⟩⟩ := b
  simp [bytes]

theorem before_trans (first : a.before b = true) (second : b.before c = true) : a.before c = true :=
  before_iff.mpr (List.lt_trans (before_iff.mp first) (before_iff.mp second))

/-- Of two addresses one comes before the other, unless they are the same. -/
theorem before_or : a = b ∨ a.before b = true ∨ b.before a = true := by
  rw [or_iff_not_imp_right, not_or, before_iff, before_iff, ← bytes_inj]
  exact fun ⟨notBefore, notBehind⟩ => List.le_antisymm notBehind notBefore

/-! ### Sets of addresses -/

theorem mem_insert {ids : List Address} :
    b ∈ insert a ids ↔ b = a ∨ b ∈ ids := by
  induction ids with
  | nil => simp [insert]
  | cons c rest ih =>
    unfold insert
    split
    · rename_i same
      subst same
      simp
    · split
      · simp
      · simp only [List.mem_cons, ih]
        exact or_left_comm

theorem insert_ascending {ids : List Address} (ascending : ids.Pairwise (·.before ·)) :
    (insert a ids).Pairwise (·.before ·) := by
  induction ids with
  | nil => exact List.pairwise_singleton _ _
  | cons b rest ih =>
    obtain ⟨first, others⟩ := List.pairwise_cons.mp ascending
    unfold insert
    split
    · exact ascending
    · rename_i differs
      split
      · rename_i before
        refine List.pairwise_cons.mpr ⟨fun c inside => ?_, ascending⟩
        rcases List.mem_cons.mp inside with rfl | later
        · exact before
        · exact before_trans before (first c later)
      · rename_i notBefore
        have behind : b.before a = true := (before_or.resolve_left differs).resolve_left notBefore
        refine List.pairwise_cons.mpr ⟨fun c inside => ?_, ih others⟩
        rcases mem_insert.mp inside with rfl | later
        · exact behind
        · exact first c later

end Address

end MoveTx
