import MoveTx.Address
import MoveTx.Proofs.Text.Hex

/-!
# Addresses as texts

The texts of addresses are the numerals of 1 to 64 hex digits, with or without `0x` before them. Each denotes
a number, which the bytes of the address are, and two of them are read as one address exactly when they
denote one number. All forms in which an address is written denote its own.
-/

namespace MoveTx.Address

theorem toList_text (a : Address) : a.text.toList = '0' :: 'x' :: Hex.encodeChars a.bytes := by
  have digits : (Hex.encode a.bytes).toList = Hex.encodeChars a.bytes := String.toList_ofList
  rw [text, unprefixed, String.toList_append, digits]
  rfl

theorem length_digits (a : Address) : (Hex.encodeChars a.bytes).length = digitCount := by
  rw [Hex.length_encodeChars, bytes, a.raw.length_eq]
  rfl

/-- Digits take up one byte of text each. -/
theorem utf8Length_digits {digits : List Char} (all : ∀ c ∈ digits, Hex.isDigit c = true) :
    Text.utf8Length digits = digits.length := by
  induction digits with
  | nil => rfl
  | cons c cs ih =>
    obtain ⟨here, rest⟩ := List.forall_mem_cons.mp all
    rw [Text.utf8Length, ih rest, Hex.utf8Size_of_isDigit here, List.length_cons, Nat.add_comm]

theorem length_le_utf8Length (cs : List Char) : cs.length ≤ Text.utf8Length cs := by
  induction cs with
  | nil => exact Nat.le_refl 0
  | cons c cs ih =>
    have positive := c.utf8Size_pos
    rw [Text.utf8Length, List.length_cons]
    omega

theorem ofBytes?_eq_some_iff {bs : Bytes} {a : Address} : ofBytes? bs = some a ↔ a.bytes = bs := by
  change (FixedBytes.ofBytes? 32 bs).map Address.mk = some a ↔ _
  rw [Option.map_eq_some_iff]
  constructor
  · rintro ⟨raw, found, rfl⟩
    exact (FixedBytes.ofBytes?_eq_some_iff.mp found).symm
  · rintro rfl
    exact ⟨a.raw, FixedBytes.ofBytes?_toBytes a.raw, rfl⟩

theorem ofNat_ofBigEndian (a : Address) : ofNat (ofBigEndian a.bytes) = a := by
  have whole := bigEndian_ofBigEndian a.bytes
  rw [show a.bytes.length = 32 from a.raw.length_eq] at whole
  obtain ⟨⟨bs, sized⟩⟩ := a
  exact congrArg Address.mk (FixedBytes.mk.injEq _ _ _ _ ▸ whole)

/-! ### Numerals -/

/-- The characters are a numeral of the address: 1 to 64 hex digits, after `0x` or `0X` or neither, whose
number it is. -/
def IsNumeral (cs : List Char) (a : Address) : Prop :=
  ∃ mark digits, cs = mark ++ digits ∧ mark ∈ ["".toList, "0x".toList, "0X".toList] ∧
    digits ≠ [] ∧ digits.length ≤ digitCount ∧ (∀ c ∈ digits, Hex.isDigit c = true) ∧
    a = ofNat (Hex.number digits)

/-- The digits of a numeral are what comes after its mark, since neither `x` nor `X` is a digit. -/
theorem digitsOf_eq_iff {cs digits : List Char} (all : ∀ c ∈ digits, Hex.isDigit c = true) :
    digitsOf cs = digits ↔ ∃ mark ∈ ["".toList, "0x".toList, "0X".toList], cs = mark ++ digits := by
  constructor
  · rintro rfl
    fun_cases digitsOf cs with
    | case1 rest => exact ⟨"0x".toList, by simp, rfl⟩
    | case2 rest => exact ⟨"0X".toList, by simp, rfl⟩
    | case3 => exact ⟨"".toList, by simp, rfl⟩
  · rintro ⟨mark, known, rfl⟩
    simp only [List.mem_cons, List.not_mem_nil, or_false] at known
    rcases known with rfl | rfl | rfl
    · change digitsOf digits = digits
      fun_cases digitsOf digits with
      | case1 rest => exact absurd (all 'x' (by simp)) (by decide)
      | case2 rest => exact absurd (all 'X' (by simp)) (by decide)
      | case3 => rfl
    · rfl
    · rfl

/-- Digits are read as the address of their number once zeros before them have made them 64. -/
theorem padded_eq_some_iff {digits : List Char} {a : Address} (few : digits.length ≤ digitCount) :
    (Hex.decodeChars? (List.replicate (digitCount - digits.length) '0' ++ digits) >>= ofBytes?) = some a ↔
      (∀ c ∈ digits, Hex.isDigit c = true) ∧ a = ofNat (Hex.number digits) := by
  rw [Option.bind_eq_bind, Option.bind_eq_some_iff]
  constructor
  · rintro ⟨bs, read, found⟩
    obtain rfl := ofBytes?_eq_some_iff.mp found
    refine ⟨fun c inside => Hex.isDigit_of_decodeChars? read c (List.mem_append_right _ inside), ?_⟩
    rw [← Hex.number_zeros, ← Hex.ofBigEndian_of_decodeChars? read, ofNat_ofBigEndian]
  · rintro ⟨all, rfl⟩
    have zeros : ∀ c ∈ List.replicate (digitCount - digits.length) '0', Hex.isDigit c = true := by
      intro c inside
      rw [List.eq_of_mem_replicate inside]
      decide
    have count : (List.replicate (digitCount - digits.length) '0' ++ digits).length = 2 * 32 := by
      rw [List.length_append, List.length_replicate, Nat.sub_add_cancel few]
      rfl
    obtain ⟨bs, read⟩ := Hex.exists_decodeChars? (count ▸ Nat.dvd_mul_right 2 32)
      (List.forall_mem_append.mpr ⟨zeros, all⟩)
    have sized : bs.length = 32 := by
      have counted := Hex.length_of_decodeChars? read
      omega
    refine ⟨bs, read, ofBytes?_eq_some_iff.mpr ?_⟩
    have same : ofNat (Hex.number digits) = ⟨⟨bs, sized⟩⟩ := by
      rw [← Hex.number_zeros, ← Hex.ofBigEndian_of_decodeChars? read]
      exact ofNat_ofBigEndian ⟨⟨bs, sized⟩⟩
    rw [same]
    rfl

/-- The texts of addresses are their numerals. -/
theorem parse_eq_ok_iff {s : String} {a : Address} : parse s = .ok a ↔ IsNumeral s.toList a := by
  unfold parse
  constructor
  · intro read
    dsimp only at read
    split at read
    · cases read
    split at read
    · cases read
    rename_i some short
    have few := (length_le_utf8Length (digitsOf s.toList)).trans (Nat.le_of_not_lt short)
    split at read
    · rename_i found
      obtain rfl := Except.ok.inj read
      obtain ⟨all, value⟩ := (padded_eq_some_iff few).mp found
      obtain ⟨mark, known, split⟩ := (digitsOf_eq_iff all).mp rfl
      exact ⟨mark, _, split, known, by simpa using some, few, all, value⟩
    · cases read
  · rintro ⟨mark, digits, split, known, some, few, all, value⟩
    have after := (digitsOf_eq_iff all).mpr ⟨mark, known, split⟩
    have short : ¬ digitCount < Text.utf8Length digits := by
      rw [utf8Length_digits all]
      exact Nat.not_lt_of_le few
    have found := (padded_eq_some_iff few).mpr ⟨all, value⟩
    simp only [after, if_neg short, found, List.isEmpty_eq_false_iff.mpr some, Bool.false_eq_true,
      if_false]

theorem digits_ne_nil (a : Address) : Hex.encodeChars a.bytes ≠ [] := by
  rw [ne_eq, ← List.length_eq_zero_iff, length_digits]
  decide

theorem isNumeral_text (a : Address) : IsNumeral a.text.toList a := by
  refine ⟨"0x".toList, Hex.encodeChars a.bytes, toList_text a, by simp, a.digits_ne_nil,
    (length_digits a).le, Hex.isDigit_of_mem_encodeChars, ?_⟩
  rw [Hex.number_encodeChars, ofNat_ofBigEndian]

theorem parse_text (a : Address) : parse a.text = .ok a :=
  parse_eq_ok_iff.mpr (isNumeral_text a)

/-! ### Denoted numbers -/

/-- The text is an optional `0x` or `0X` and 1 to 64 hex digits, whose number is `n`. -/
def Denotes (s : String) (n : Nat) : Prop :=
  ∃ mark ∈ ["", "0x", "0X"], ∃ digits : List Char, s.toList = mark.toList ++ digits ∧ digits ≠ [] ∧
    digits.length ≤ 64 ∧ (∀ c ∈ digits, Hex.isDigit c = true) ∧ n = Hex.number digits

theorem isNumeral_iff {s : String} {a : Address} : IsNumeral s.toList a ↔ ∃ n, Denotes s n ∧ a = ofNat n := by
  constructor
  · rintro ⟨mark, digits, split, known, some, few, all, value⟩
    simp only [List.mem_cons, List.not_mem_nil, or_false] at known
    rcases known with rfl | rfl | rfl
    · exact ⟨_, ⟨"", by simp, digits, split, some, few, all, rfl⟩, value⟩
    · exact ⟨_, ⟨"0x", by simp, digits, split, some, few, all, rfl⟩, value⟩
    · exact ⟨_, ⟨"0X", by simp, digits, split, some, few, all, rfl⟩, value⟩
  · rintro ⟨n, ⟨mark, known, digits, split, some, few, all, rfl⟩, rfl⟩
    exact ⟨mark.toList, digits, split, List.mem_map_of_mem (f := String.toList) known, some, few, all, rfl⟩

theorem Denotes.lt {s : String} {n : Nat} (denotes : Denotes s n) : n < 256 ^ 32 := by
  obtain ⟨-, -, digits, -, -, few, all, rfl⟩ := denotes
  calc Hex.number digits < 16 ^ digits.length := Hex.number_lt all
    _ ≤ 16 ^ 64 := Nat.pow_le_pow_right (by decide) few
    _ = 256 ^ 32 := by decide

theorem ofBigEndian_ofNat {n : Nat} (small : n < 256 ^ 32) : ofBigEndian (ofNat n).bytes = n :=
  ofBigEndian_bigEndian small

theorem Denotes.parse {s : String} {n : Nat} (denotes : Denotes s n) : parse s = .ok (ofNat n) :=
  parse_eq_ok_iff.mpr (isNumeral_iff.mpr ⟨n, denotes, rfl⟩)

/-! ### Written forms -/

theorem denotes_unprefixed (a : Address) : Denotes a.unprefixed (ofBigEndian a.bytes) :=
  ⟨"", by simp, Hex.encodeChars a.bytes, String.toList_ofList, a.digits_ne_nil, (length_digits a).le,
    Hex.isDigit_of_mem_encodeChars, (Hex.number_encodeChars a.bytes).symm⟩

theorem denotes_text (a : Address) : Denotes a.text (ofBigEndian a.bytes) :=
  ⟨"0x", by simp, Hex.encodeChars a.bytes, toList_text a, a.digits_ne_nil, (length_digits a).le,
    Hex.isDigit_of_mem_encodeChars, (Hex.number_encodeChars a.bytes).symm⟩

/-- The short form has the digits of the full one without zeros in front, of which one is left for zero. -/
theorem exists_shortDigits (a : Address) :
    ∃ digits, a.shortText = "0x" ++ String.ofList digits ∧ digits ≠ [] ∧ digits.length ≤ digitCount ∧
      (∀ c ∈ digits, Hex.isDigit c = true) ∧ Hex.number digits = ofBigEndian a.bytes ∧
      (digits.head? = some '0' → a = ofNat 0) := by
  have value := (Hex.number_dropWhile (Hex.encodeChars a.bytes)).trans (Hex.number_encodeChars a.bytes)
  have first := List.head?_dropWhile_not (· == '0') (Hex.encodeChars a.bytes)
  have kept := List.dropWhile_sublist (· == '0') (l := Hex.encodeChars a.bytes)
  unfold shortText
  cases digits : (Hex.encodeChars a.bytes).dropWhile (· == '0') with
  | nil =>
    rw [digits] at value
    refine ⟨['0'], rfl, List.cons_ne_nil _ _, by decide, List.all_eq_true.mp rfl, value, fun _ => ?_⟩
    rw [← ofNat_ofBigEndian a, ← value]
    rfl
  | cons c cs =>
    rw [digits] at value first kept
    refine ⟨c :: cs, rfl, List.cons_ne_nil _ _, kept.length_le.trans (length_digits a).le,
      fun d inside => Hex.isDigit_of_mem_encodeChars d (kept.mem inside), value, fun zero => ?_⟩
    rw [zero] at first
    cases first

theorem denotes_shortText (a : Address) : Denotes a.shortText (ofBigEndian a.bytes) := by
  obtain ⟨digits, form, some, few, all, value, -⟩ := a.exists_shortDigits
  refine ⟨"0x", by simp, digits, ?_, some, few, all, value.symm⟩
  rw [form, String.toList_append]
  exact congrArg ("0x".toList ++ ·) String.toList_ofList

/-- Texts denote numbers. Those that denote one are read, as the address whose bytes are that number, so that
two of them are read as the same address exactly when they denote the same number. The full form, that
without its mark and the short form of an address are all read as that address. The full one has 64 lowercase
digits, and the short one has no zero in front unless the address is zero. -/
theorem texts_denote :
    (∀ s, (∃ a, parse s = .ok a) ↔ ∃ n, Denotes s n) ∧
      (∀ s a n, parse s = .ok a → Denotes s n → ofBigEndian a.bytes = n) ∧
      (∀ s t a b m n, parse s = .ok a → parse t = .ok b → Denotes s m → Denotes t n → (a = b ↔ m = n)) ∧
      (∀ a : Address, parse a.text = .ok a ∧ parse a.unprefixed = .ok a ∧ parse a.shortText = .ok a) ∧
      (∀ a : Address, ∃ digits : List Char, a.text = "0x" ++ String.ofList digits ∧ digits.length = 64 ∧
        ∀ c ∈ digits, c ∈ "0123456789abcdef".toList) ∧
      ∀ a : Address, ∃ digits : List Char, a.shortText = "0x" ++ String.ofList digits ∧ digits ≠ [] ∧
        (digits.head? = some '0' → a = ofNat 0) := by
  have own {s : String} {a : Address} (denotes : Denotes s (ofBigEndian a.bytes)) : parse s = .ok a := by
    rw [denotes.parse, ofNat_ofBigEndian]
  have value {s : String} {a : Address} {n : Nat} (read : parse s = .ok a) (denotes : Denotes s n) :
      ofBigEndian a.bytes = n := by
    rw [denotes.parse] at read
    rw [← Except.ok.inj read, ofBigEndian_ofNat denotes.lt]
  refine ⟨fun s => ?_, fun s a n => value, fun s t a b m n first second left right => ?_,
    fun a => ⟨own a.denotes_text, own a.denotes_unprefixed, own a.denotes_shortText⟩, fun a => ?_, fun a => ?_⟩
  · constructor
    · rintro ⟨a, read⟩
      obtain ⟨n, denotes, -⟩ := isNumeral_iff.mp (parse_eq_ok_iff.mp read)
      exact ⟨n, denotes⟩
    · rintro ⟨n, denotes⟩
      exact ⟨_, denotes.parse⟩
  · rw [← value first left, ← value second right]
    constructor
    · rintro rfl
      rfl
    · intro same
      rw [← ofNat_ofBigEndian a, same, ofNat_ofBigEndian]
  · have lower : ∀ n < 16, Hex.digit n ∈ "0123456789abcdef".toList := by decide +kernel
    exact ⟨Hex.encodeChars a.bytes, rfl, length_digits a,
      fun c inside => Hex.forall_mem_encodeChars (p := (· ∈ "0123456789abcdef".toList)) lower inside⟩
  · obtain ⟨digits, form, some, -, -, -, first⟩ := a.exists_shortDigits
    exact ⟨digits, form, some, first⟩

/-- Neither the case of letters nor zeros in front make a difference. -/
theorem paddedText_denotes : ∃ a, parse "0X00fF" = .ok a ∧ parse "Ff" = .ok a ∧ ofBigEndian a.bytes = 255 := by
  obtain ⟨accepted, value, same, -⟩ := texts_denote
  have padded : Denotes "0X00fF" 255 :=
    ⟨"0X", by simp, "00fF".toList, rfl, by decide, by decide, List.all_eq_true.mp rfl, rfl⟩
  have short : Denotes "Ff" 255 :=
    ⟨"", by simp, "Ff".toList, rfl, by decide, by decide, List.all_eq_true.mp rfl, rfl⟩
  obtain ⟨a, read⟩ := (accepted _).mpr ⟨255, padded⟩
  obtain ⟨b, read'⟩ := (accepted _).mpr ⟨255, short⟩
  obtain rfl := (same _ _ _ _ _ _ read read' padded short).mpr rfl
  exact ⟨a, read, read', value _ _ _ read padded⟩

end MoveTx.Address
