import Mathlib.Data.List.Induction
import Mathlib.Data.List.TakeWhile
import MoveTx.Text.Hex
import MoveTx.Proofs.Bytes

/-!
# Hexadecimal texts

The digits that bytes are written in read as the bytes that were written. Any even count of digits is
read, and the bytes stand for the same number as the digits.
-/

namespace MoveTx.Hex

theorem value?_digit {n : Nat} (small : n < 16) : value? (digit n) = some n := by
  have all : ∀ n < 16, value? (digit n) = some n := by decide +kernel
  exact all n small

theorem encodeChars_cons (b : UInt8) (bs : Bytes) :
    encodeChars (b :: bs) = digit (b.toNat / 16) :: digit (b.toNat % 16) :: encodeChars bs := rfl

theorem decodeChars?_encodeChars (bs : Bytes) : decodeChars? (encodeChars bs) = some bs := by
  induction bs with
  | nil => rfl
  | cons b bs ih =>
    have bound := b.toNat_lt
    have high := value?_digit (show b.toNat / 16 < 16 by omega)
    have low := value?_digit (show b.toNat % 16 < 16 by omega)
    have whole : 16 * (b.toNat / 16) + b.toNat % 16 = b.toNat := Nat.div_add_mod _ _
    rw [encodeChars_cons, decodeChars?, high, low, ih]
    simp only [Option.bind_eq_bind, Option.bind_some, whole, UInt8.ofNat_toNat]
    rfl

theorem length_encodeChars (bs : Bytes) : (encodeChars bs).length = 2 * bs.length := by
  induction bs with
  | nil => rfl
  | cons b bs ih =>
    rw [encodeChars_cons, List.length_cons, List.length_cons, List.length_cons, ih]
    omega

/-- What holds of all sixteen digits holds of every character that is written. -/
theorem forall_mem_encodeChars {p : Char → Prop} (digits : ∀ n < 16, p (digit n)) {bs : Bytes} {c : Char}
    (inside : c ∈ encodeChars bs) : p c := by
  obtain ⟨b, -, inside⟩ := List.mem_flatMap.mp inside
  have bound := b.toNat_lt
  simp only [List.mem_cons, List.not_mem_nil, or_false] at inside
  rcases inside with rfl | rfl
  · exact digits _ (by omega)
  · exact digits _ (by omega)

theorem isDigit_of_mem_encodeChars {bs : Bytes} : ∀ c ∈ encodeChars bs, isDigit c = true := by
  have digits : ∀ n < 16, isDigit (digit n) = true := by decide +kernel
  exact fun c inside => forall_mem_encodeChars (p := fun c => isDigit c = true) digits inside

/-! ### Numbers -/

/-- The number whose digits these are, the most significant first. -/
def number (digits : List Char) : Nat :=
  digits.foldl (fun n c => 16 * n + (value? c).getD 0) 0

theorem toNat_lt_of_value? {c : Char} {n : Nat} (read : value? c = some n) : c.toNat < 128 := by
  have below : ∀ d : Char, c ≤ d → c.toNat ≤ d.toNat := fun _ le => le
  unfold value? at read
  split at read
  · rename_i figure
    exact Nat.lt_of_le_of_lt (below '9' figure.2) (by decide)
  split at read
  · rename_i lower
    exact Nat.lt_of_le_of_lt (below 'f' lower.2) (by decide)
  split at read
  · rename_i upper
    exact Nat.lt_of_le_of_lt (below 'F' upper.2) (by decide)
  · cases read

theorem value?_lt {c : Char} {n : Nat} (read : value? c = some n) : n < 16 := by
  have all : ∀ k < 128, ∀ n ∈ value? (Char.ofNat k), n < 16 := by decide +kernel
  have known := all c.toNat (toNat_lt_of_value? read) n
  rw [Char.ofNat_toNat] at known
  exact known read

/-- A digit takes up one byte of text. -/
theorem utf8Size_of_isDigit {c : Char} (digit : isDigit c = true) : c.utf8Size = 1 := by
  obtain ⟨n, read⟩ := Option.isSome_iff_exists.mp digit
  have all : ∀ k < 128, (Char.ofNat k).utf8Size = 1 := by decide +kernel
  have known := all c.toNat (toNat_lt_of_value? read)
  rwa [Char.ofNat_toNat] at known

theorem decodeChars?_cons_eq_some {hi lo : Char} {rest : List Char} {bs : Bytes} :
    decodeChars? (hi :: lo :: rest) = some bs ↔
      ∃ h l others, value? hi = some h ∧ value? lo = some l ∧ decodeChars? rest = some others ∧
        bs = UInt8.ofNat (16 * h + l) :: others := by
  simp only [decodeChars?, Option.bind_eq_bind, Option.bind_eq_some_iff, Option.pure_def,
    Option.some.injEq]
  constructor
  · rintro ⟨h, high, l, low, others, read, rfl⟩
    exact ⟨h, l, others, high, low, read, rfl⟩
  · rintro ⟨h, l, others, high, low, read, rfl⟩
    exact ⟨h, high, l, low, others, read, rfl⟩

/-- Digits are read whenever there is an even count of them. -/
theorem exists_decodeChars? {cs : List Char} (even : 2 ∣ cs.length) (all : ∀ c ∈ cs, isDigit c = true) :
    ∃ bs, decodeChars? cs = some bs := by
  fun_induction decodeChars? cs with
  | case1 => exact ⟨[], rfl⟩
  | case2 c => exact absurd (Nat.dvd_one.mp even) (by decide)
  | case3 hi lo rest ih =>
    obtain ⟨first, second, others⟩ : isDigit hi = true ∧ isDigit lo = true ∧ _ := by
      simpa only [List.forall_mem_cons] using all
    obtain ⟨h, high⟩ := Option.isSome_iff_exists.mp first
    obtain ⟨l, low⟩ := Option.isSome_iff_exists.mp second
    obtain ⟨bs, read⟩ := ih (by simpa using even) others
    exact ⟨_, decodeChars?_cons_eq_some.mpr ⟨h, l, bs, high, low, read, rfl⟩⟩

theorem isDigit_of_decodeChars? {cs : List Char} {bs : Bytes} (read : decodeChars? cs = some bs) :
    ∀ c ∈ cs, isDigit c = true := by
  fun_induction decodeChars? cs generalizing bs with
  | case1 => nofun
  | case2 c => cases read
  | case3 hi lo rest ih =>
    obtain ⟨h, l, others, high, low, later, -⟩ := decodeChars?_cons_eq_some.mp read
    refine List.forall_mem_cons.mpr ⟨?_, List.forall_mem_cons.mpr ⟨?_, ih later⟩⟩
    · rw [isDigit, high, Option.isSome_some]
    · rw [isDigit, low, Option.isSome_some]

/-- The bytes go on with a number as the digits do, whatever it was before them. -/
theorem foldl_of_decodeChars? {cs : List Char} {bs : Bytes} (read : decodeChars? cs = some bs)
    (n : Nat) : bs.foldl (fun n b => 256 * n + b.toNat) n =
      cs.foldl (fun n c => 16 * n + (value? c).getD 0) n := by
  fun_induction decodeChars? cs generalizing bs n with
  | case1 =>
    obtain rfl := Option.some.inj read
    rfl
  | case2 c => cases read
  | case3 hi lo rest ih =>
    obtain ⟨h, l, others, high, low, later, rfl⟩ := decodeChars?_cons_eq_some.mp read
    have bound := value?_lt high
    have bound' := value?_lt low
    have byte : (UInt8.ofNat (16 * h + l)).toNat = 16 * h + l :=
      UInt8.toNat_ofNat_of_lt' (show _ < 256 by omega)
    have joined : 256 * n + (16 * h + l) = 16 * (16 * n + h) + l := by omega
    simp only [List.foldl_cons, high, low, Option.getD_some, byte, joined, ih later]

theorem ofBigEndian_of_decodeChars? {cs : List Char} {bs : Bytes} (read : decodeChars? cs = some bs) :
    ofBigEndian bs = number cs :=
  foldl_of_decodeChars? read 0

theorem number_encodeChars (bs : Bytes) : number (encodeChars bs) = ofBigEndian bs :=
  (ofBigEndian_of_decodeChars? (decodeChars?_encodeChars bs)).symm

theorem length_of_decodeChars? {cs : List Char} {bs : Bytes} (read : decodeChars? cs = some bs) :
    cs.length = 2 * bs.length := by
  fun_induction decodeChars? cs generalizing bs with
  | case1 =>
    obtain rfl := Option.some.inj read
    rfl
  | case2 c => cases read
  | case3 hi lo rest ih =>
    obtain ⟨h, l, others, high, low, later, rfl⟩ := decodeChars?_cons_eq_some.mp read
    have counted := ih later
    simp only [List.length_cons]
    omega

theorem number_concat (digits : List Char) (c : Char) :
    number (digits ++ [c]) = 16 * number digits + (value? c).getD 0 :=
  List.foldl_append

theorem number_lt {digits : List Char} (all : ∀ c ∈ digits, isDigit c = true) :
    number digits < 16 ^ digits.length := by
  induction digits using List.reverseRecOn with
  | nil => exact Nat.one_pos
  | append_singleton digits c ih =>
    obtain ⟨before, last⟩ := List.forall_mem_append.mp all
    obtain ⟨n, read⟩ := Option.isSome_iff_exists.mp (last c (List.mem_singleton_self c))
    have small := value?_lt read
    have below := ih before
    rw [number_concat, read, Option.getD_some, List.length_append, List.length_singleton, Nat.pow_succ]
    omega

/-- Zeros before a number change nothing. -/
theorem number_zeros (count : Nat) (digits : List Char) :
    number (List.replicate count '0' ++ digits) = number digits := by
  have zeros : number (List.replicate count '0') = 0 := by
    induction count with
    | zero => rfl
    | succ count ih => exact ih
  rw [number, List.foldl_append]
  exact congrArg (digits.foldl _) zeros

theorem number_dropWhile (digits : List Char) :
    number (digits.dropWhile (· == '0')) = number digits := by
  have zeros : digits.takeWhile (· == '0') =
      List.replicate (digits.takeWhile (· == '0')).length '0' :=
    List.eq_replicate_iff.mpr ⟨rfl, fun _ inside =>
      beq_iff_eq.mp (List.mem_takeWhile_imp (p := (· == '0')) inside)⟩
  conv_rhs => rw [← List.takeWhile_append_dropWhile (p := (· == '0')) (l := digits), zeros, number_zeros]

end MoveTx.Hex
