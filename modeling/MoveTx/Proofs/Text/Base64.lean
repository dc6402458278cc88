import MoveTx.Text.Base64
import MoveTx.Text.Blank

/-!
# Base-64 texts

What is written in base 64 reads as the bytes that were written, and nothing else is read. There are no
blanks in it.
-/

namespace MoveTx.Base64

theorem value?_digit {n : Nat} (small : n < 64) : value? (digit n) = some n := by
  have all : ∀ n < 64, value? (digit n) = some n := by decide +kernel
  exact all n small

theorem digit_ne_filling {n : Nat} (small : n < 64) : digit n ≠ '=' := by
  have all : ∀ n < 64, digit n ≠ '=' := by decide +kernel
  exact all n small

theorem toNat_lt_of_value? {c : Char} {n : Nat} (read : value? c = some n) : c.toNat < 128 := by
  have below : ∀ d : Char, c ≤ d → c.toNat ≤ d.toNat := fun _ le => le
  unfold value? at read
  split at read
  · rename_i upper
    exact Nat.lt_of_le_of_lt (below 'Z' upper.2) (by decide)
  split at read
  · rename_i lower
    exact Nat.lt_of_le_of_lt (below 'z' lower.2) (by decide)
  split at read
  · rename_i figure
    exact Nat.lt_of_le_of_lt (below '9' figure.2) (by decide)
  split at read
  · rename_i plus
    rw [plus]
    decide
  split at read
  · rename_i slash
    rw [slash]
    decide
  · cases read

theorem value?_eq_some_iff {c : Char} {n : Nat} : value? c = some n ↔ n < 64 ∧ digit n = c := by
  constructor
  · intro read
    have all : ∀ k < 128, ∀ n ∈ value? (Char.ofNat k), n < 64 ∧ digit n = Char.ofNat k := by
      decide +kernel
    have known := all c.toNat (toNat_lt_of_value? read) n
    rw [Char.ofNat_toNat] at known
    exact known read
  · rintro ⟨small, rfl⟩
    exact value?_digit small

/-! ### Groups -/

theorem byte_eq {n : Nat} {b : UInt8} (same : n % 256 = b.toNat) : UInt8.ofNat n = b := by
  apply UInt8.toNat_inj.mp
  rw [UInt8.toNat_ofNat', same]

theorem oneByte?_digits (a : UInt8) :
    oneByte? (digit (a.toNat / 4)) (digit (a.toNat % 4 * 16)) = some [a] := by
  have bound := a.toNat_lt
  have unused : a.toNat % 4 * 16 % 16 = 0 := by omega
  have first : UInt8.ofNat (a.toNat / 4 * 4 + a.toNat % 4 * 16 / 16) = a := byte_eq (by omega)
  unfold oneByte?
  rw [value?_digit (by omega), value?_digit (by omega)]
  simp only [Option.bind_eq_bind, Option.bind_some, if_pos unused, first]

theorem twoBytes?_digits (a b : UInt8) :
    twoBytes? (digit (a.toNat / 4)) (digit (a.toNat % 4 * 16 + b.toNat / 16))
      (digit (b.toNat % 16 * 4)) = some [a, b] := by
  have bound := a.toNat_lt
  have bound' := b.toNat_lt
  have unused : b.toNat % 16 * 4 % 4 = 0 := by omega
  have first : UInt8.ofNat (a.toNat / 4 * 4 + (a.toNat % 4 * 16 + b.toNat / 16) / 16) = a :=
    byte_eq (by omega)
  have second : UInt8.ofNat ((a.toNat % 4 * 16 + b.toNat / 16) % 16 * 16 + b.toNat % 16 * 4 / 4) = b :=
    byte_eq (by omega)
  unfold twoBytes?
  rw [value?_digit (by omega), value?_digit (by omega), value?_digit (by omega)]
  simp only [Option.bind_eq_bind, Option.bind_some, if_pos unused, first, second]

theorem threeBytes?_digits (a b c : UInt8) :
    threeBytes? (digit (a.toNat / 4)) (digit (a.toNat % 4 * 16 + b.toNat / 16))
      (digit (b.toNat % 16 * 4 + c.toNat / 64)) (digit (c.toNat % 64)) = some [a, b, c] := by
  have bound := a.toNat_lt
  have bound' := b.toNat_lt
  have bound'' := c.toNat_lt
  have first : UInt8.ofNat (a.toNat / 4 * 4 + (a.toNat % 4 * 16 + b.toNat / 16) / 16) = a :=
    byte_eq (by omega)
  have second : UInt8.ofNat ((a.toNat % 4 * 16 + b.toNat / 16) % 16 * 16 +
      (b.toNat % 16 * 4 + c.toNat / 64) / 4) = b := byte_eq (by omega)
  have third : UInt8.ofNat ((b.toNat % 16 * 4 + c.toNat / 64) % 4 * 64 + c.toNat % 64) = c :=
    byte_eq (by omega)
  unfold threeBytes?
  rw [value?_digit (by omega), value?_digit (by omega), value?_digit (by omega), value?_digit (by omega)]
  simp only [Option.bind_eq_bind, Option.bind_some, first, second, third]
  rfl

theorem oneByte?_eq_some {a b : Char} {bs : Bytes} (read : oneByte? a b = some bs) :
    ∃ x : UInt8, bs = [x] ∧ a = digit (x.toNat / 4) ∧ b = digit (x.toNat % 4 * 16) := by
  unfold oneByte? at read
  simp only [Option.bind_eq_bind, Option.bind_eq_some_iff, value?_eq_some_iff] at read
  obtain ⟨i, ⟨_, rfl⟩, j, ⟨_, rfl⟩, read⟩ := read
  split at read
  · obtain rfl := Option.some.inj read
    have byte : (UInt8.ofNat (i * 4 + j / 16)).toNat = i * 4 + j / 16 :=
      UInt8.toNat_ofNat_of_lt' (show _ < 256 by omega)
    exact ⟨_, rfl, congrArg digit (by omega), congrArg digit (by omega)⟩
  · cases read

theorem twoBytes?_eq_some {a b c : Char} {bs : Bytes} (read : twoBytes? a b c = some bs) :
    ∃ x y : UInt8, bs = [x, y] ∧ a = digit (x.toNat / 4) ∧
      b = digit (x.toNat % 4 * 16 + y.toNat / 16) ∧ c = digit (y.toNat % 16 * 4) := by
  unfold twoBytes? at read
  simp only [Option.bind_eq_bind, Option.bind_eq_some_iff, value?_eq_some_iff] at read
  obtain ⟨i, ⟨_, rfl⟩, j, ⟨_, rfl⟩, k, ⟨_, rfl⟩, read⟩ := read
  split at read
  · obtain rfl := Option.some.inj read
    have first : (UInt8.ofNat (i * 4 + j / 16)).toNat = i * 4 + j / 16 :=
      UInt8.toNat_ofNat_of_lt' (show _ < 256 by omega)
    have second : (UInt8.ofNat (j % 16 * 16 + k / 4)).toNat = j % 16 * 16 + k / 4 :=
      UInt8.toNat_ofNat_of_lt' (show _ < 256 by omega)
    refine ⟨_, _, rfl, congrArg digit ?_, congrArg digit ?_, congrArg digit ?_⟩ <;> omega
  · cases read

theorem threeBytes?_eq_some {a b c d : Char} {bs : Bytes} (read : threeBytes? a b c d = some bs) :
    ∃ x y z : UInt8, bs = [x, y, z] ∧ a = digit (x.toNat / 4) ∧
      b = digit (x.toNat % 4 * 16 + y.toNat / 16) ∧ c = digit (y.toNat % 16 * 4 + z.toNat / 64) ∧
      d = digit (z.toNat % 64) := by
  unfold threeBytes? at read
  simp only [Option.bind_eq_bind, Option.bind_eq_some_iff, value?_eq_some_iff] at read
  obtain ⟨i, ⟨_, rfl⟩, j, ⟨_, rfl⟩, k, ⟨_, rfl⟩, l, ⟨_, rfl⟩, read⟩ := read
  obtain rfl := Option.some.inj read
  have first : (UInt8.ofNat (i * 4 + j / 16)).toNat = i * 4 + j / 16 :=
    UInt8.toNat_ofNat_of_lt' (show _ < 256 by omega)
  have second : (UInt8.ofNat (j % 16 * 16 + k / 4)).toNat = j % 16 * 16 + k / 4 :=
    UInt8.toNat_ofNat_of_lt' (show _ < 256 by omega)
  have third : (UInt8.ofNat (k % 4 * 64 + l)).toNat = k % 4 * 64 + l :=
    UInt8.toNat_ofNat_of_lt' (show _ < 256 by omega)
  refine ⟨_, _, _, rfl, ?_, ?_, ?_, ?_⟩ <;> refine congrArg digit ?_ <;> omega

/-! ### Texts -/

/-- A full group is read before the rest. -/
theorem decodeChars?_group {a b c d : Char} {group bytes : Bytes} {rest : List Char}
    (full : d ≠ '=') (first : threeBytes? a b c d = some group)
    (others : decodeChars? rest = some bytes) :
    decodeChars? (a :: b :: c :: d :: rest) = some (group ++ bytes) := by
  cases rest with
  | nil =>
    obtain rfl := Option.some.inj others
    rw [decodeChars?, if_pos full, first, List.append_nil]
  | cons e rest =>
    rw [decodeChars?, first, others]
    · rfl
    · exact List.cons_ne_nil e rest

theorem decodeChars?_encodeChars (bs : Bytes) : decodeChars? (encodeChars bs) = some bs := by
  fun_induction encodeChars bs with
  | case1 => rfl
  | case2 a => simp [decodeChars?, oneByte?_digits]
  | case3 a b =>
    have digits := twoBytes?_digits a b
    have full : digit (b.toNat % 16 * 4) ≠ '=' := digit_ne_filling (by omega)
    simp [decodeChars?, full, digits]
  | case4 a b c rest ih =>
    have full : digit (c.toNat % 64) ≠ '=' := digit_ne_filling (by omega)
    exact decodeChars?_group full (threeBytes?_digits a b c) ih

theorem encodeChars_of_decodeChars? {cs : List Char} {bs : Bytes} (read : decodeChars? cs = some bs) :
    encodeChars bs = cs := by
  fun_induction decodeChars? cs generalizing bs with
  | case1 =>
    obtain rfl := Option.some.inj read
    rfl
  | case2 a b c d full =>
    obtain ⟨x, y, z, rfl, rfl, rfl, rfl, rfl⟩ := threeBytes?_eq_some read
    rfl
  | case3 a b c d filled full =>
    obtain ⟨x, y, rfl, rfl, rfl, rfl⟩ := twoBytes?_eq_some read
    rw [encodeChars, Decidable.not_not.mp filled]
  | case4 a b c d filled filled' =>
    obtain ⟨x, rfl, rfl, rfl⟩ := oneByte?_eq_some read
    rw [encodeChars, Decidable.not_not.mp filled, Decidable.not_not.mp filled']
  | case5 a b c d rest nonempty ih =>
    simp only [Option.bind_eq_bind, Option.bind_eq_some_iff] at read
    obtain ⟨group, first, others, more, read⟩ := read
    obtain ⟨x, y, z, rfl, rfl, rfl, rfl, rfl⟩ := threeBytes?_eq_some first
    obtain rfl := Option.some.inj read
    rw [← ih more]
    rfl
  | case6 => cases read

theorem decode?_encode (bs : Bytes) : decode? (encode bs) = some bs := by
  unfold decode? encode
  rw [String.toList_ofList]
  exact decodeChars?_encodeChars bs

theorem decode?_eq_some_iff {s : String} {bs : Bytes} : decode? s = some bs ↔ s = encode bs := by
  constructor
  · intro read
    rw [encode, encodeChars_of_decodeChars? read, String.ofList_toList]
  · rintro rfl
    exact decode?_encode bs

/-! ### Blanks -/

theorem isBlank_digit {n : Nat} (small : n < 64) : Text.isBlank (digit n) = false := by
  have all : ∀ n < 64, Text.isBlank (digit n) = false := by decide +kernel
  exact all n small

theorem isBlank_encodeChars (bs : Bytes) : ∀ c ∈ encodeChars bs, Text.isBlank c = false := by
  have filling : Text.isBlank '=' = false := by decide
  fun_induction encodeChars bs with
  | case1 => exact List.forall_mem_nil _
  | case2 a =>
    have bound := a.toNat_lt
    simp only [List.forall_mem_cons]
    exact ⟨isBlank_digit (by omega), isBlank_digit (by omega), filling, filling, List.forall_mem_nil _⟩
  | case3 a b =>
    have bound := a.toNat_lt
    have bound' := b.toNat_lt
    simp only [List.forall_mem_cons]
    exact ⟨isBlank_digit (by omega), isBlank_digit (by omega), isBlank_digit (by omega), filling,
      List.forall_mem_nil _⟩
  | case4 a b c rest ih =>
    have bound := a.toNat_lt
    have bound' := b.toNat_lt
    have bound'' := c.toNat_lt
    simp only [List.forall_mem_cons]
    exact ⟨isBlank_digit (by omega), isBlank_digit (by omega), isBlank_digit (by omega),
      isBlank_digit (by omega), ih⟩

end MoveTx.Base64
