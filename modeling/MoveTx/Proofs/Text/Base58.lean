import Mathlib.Data.List.TakeWhile
import Mathlib.Data.Nat.Digits.Lemmas
import MoveTx.Text.Base58

/-!
# Base-58 texts

A numeral, with the zeros at its front, is rewritten in another base with as many of them, and rewriting it
back gives the same numeral. Therefore what is written in base 58 reads as the bytes that were written.
-/

namespace MoveTx.Base58

/-! ### Digits -/

theorem digits_eq {base : Nat} (valid : 1 < base) (n : Nat) : digits base n = Nat.digits base n := by
  fun_induction digits base n with
  | case1 n done =>
    obtain rfl : n = 0 := by omega
    rw [Nat.digits_zero]
  | case2 n more ih => rw [Nat.digits_def' valid (by omega), ih]

theorem ofDigits_append (base : Nat) (ds : List Nat) (d : Nat) :
    ofDigits base (ds ++ [d]) = base * ofDigits base ds + d :=
  List.foldl_append

theorem ofDigits_eq (base : Nat) (ds : List Nat) : ofDigits base ds = Nat.ofDigits base ds.reverse := by
  induction ds using List.reverseRecOn with
  | nil => rfl
  | append_singleton ds d ih =>
    rw [ofDigits_append, List.reverse_concat, Nat.ofDigits_cons, ih, Nat.add_comm]

/-- Zeros in front change nothing. -/
theorem ofDigits_zeros (base count : Nat) (ds : List Nat) :
    ofDigits base (List.replicate count 0 ++ ds) = ofDigits base ds := by
  rw [ofDigits_eq, ofDigits_eq, List.reverse_append, List.reverse_replicate,
    Nat.ofDigits_append_replicate_zero]

variable {b c : Nat} {ds : List Nat}

theorem ofDigits_digits (valid : 1 < b) (n : Nat) : ofDigits b (digits b n).reverse = n := by
  rw [ofDigits_eq, List.reverse_reverse, digits_eq valid, Nat.ofDigits_digits]

theorem digits_lt (valid : 1 < b) {n : Nat} : ∀ d ∈ digits b n, d < b := by
  rw [digits_eq valid]
  exact fun d => Nat.digits_lt_base valid

/-- The digits of a number have no zeros in front. -/
theorem takeWhile_digits (valid : 1 < b) (n : Nat) : (digits b n).reverse.takeWhile (· == 0) = [] := by
  rw [digits_eq valid, List.takeWhile_eq_nil_iff]
  intro some zero
  have nonempty := List.ne_nil_of_length_pos some
  have nonzero : n ≠ 0 := by
    rintro rfl
    rw [Nat.digits_zero] at nonempty
    exact nonempty rfl
  rw [List.get_eq_getElem, ← List.head_eq_getElem nonempty, List.head_reverse, beq_iff_eq] at zero
  exact Nat.getLast_digit_ne_zero b nonzero zero

/-- Digits without zeros in front are those of their number. -/
theorem digits_ofDigits (valid : 1 < b) (small : ∀ d ∈ ds, d < b) (first : ds.head? ≠ some 0) :
    (digits b (ofDigits b ds)).reverse = ds := by
  rw [digits_eq valid, ofDigits_eq, Nat.digits_ofDigits b valid, List.reverse_reverse]
  · simpa using small
  · intro nonempty zero
    have nonempty := List.reverse_ne_nil_iff.mp nonempty
    rw [List.getLast_reverse] at zero
    rw [List.head?_eq_some_head nonempty, zero] at first
    exact first rfl

/-! ### Another base -/

/-- The numeral in base `c` instead of base `b`, with as many zeros in front. -/
def rewritten (b c : Nat) (ds : List Nat) : List Nat :=
  ds.takeWhile (· == 0) ++ (digits c (ofDigits b ds)).reverse

theorem eq_zero_of_mem_takeWhile {d : Nat} (inside : d ∈ ds.takeWhile (· == 0)) : d = 0 :=
  beq_iff_eq.mp (List.mem_takeWhile_imp (p := (· == 0)) inside)

theorem takeWhile_eq_zeros (ds : List Nat) :
    ds.takeWhile (· == 0) = List.replicate (ds.takeWhile (· == 0)).length 0 :=
  List.eq_replicate_length.mpr fun _ inside => eq_zero_of_mem_takeWhile inside

theorem rewritten_self (valid : 1 < b) (small : ∀ d ∈ ds, d < b) : rewritten b b ds = ds := by
  have split : ds.takeWhile (· == 0) ++ ds.dropWhile (· == 0) = ds := List.takeWhile_append_dropWhile
  have value : ofDigits b ds = ofDigits b (ds.dropWhile (· == 0)) := by
    conv_lhs => rw [← split, takeWhile_eq_zeros, ofDigits_zeros]
  have first : (ds.dropWhile (· == 0)).head? ≠ some 0 := by
    intro zero
    have kept := List.head?_dropWhile_not (· == 0) ds
    rw [zero] at kept
    cases kept
  have rest := digits_ofDigits valid (fun d inside => small d ((List.dropWhile_sublist _).mem inside)) first
  rw [rewritten, value, rest, split]

theorem takeWhile_rewritten (valid : 1 < c) (ds : List Nat) :
    (rewritten b c ds).takeWhile (· == 0) = ds.takeWhile (· == 0) := by
  rw [rewritten, List.takeWhile_append_of_pos fun d inside =>
    beq_iff_eq.mpr (eq_zero_of_mem_takeWhile inside), takeWhile_digits valid, List.append_nil]

theorem ofDigits_rewritten (valid : 1 < c) (ds : List Nat) :
    ofDigits c (rewritten b c ds) = ofDigits b ds := by
  rw [rewritten, takeWhile_eq_zeros, ofDigits_zeros, ofDigits_digits valid]

/-- A numeral is known from the count of its zeros in front and its number. -/
theorem rewritten_eq {es : List Nat} (valid : 1 < c) (small : ∀ e ∈ es, e < c)
    (zeros : (es.takeWhile (· == 0)).length = (ds.takeWhile (· == 0)).length)
    (value : ofDigits c es = ofDigits b ds) : rewritten b c ds = es := by
  rw [rewritten, takeWhile_eq_zeros, ← zeros, ← takeWhile_eq_zeros, ← value]
  exact rewritten_self valid small

theorem rewritten_rewritten (valid : 1 < c) (small : ∀ d ∈ ds, d < b) (valid' : 1 < b) :
    rewritten c b (rewritten b c ds) = ds :=
  rewritten_eq valid' small (by rw [takeWhile_rewritten valid]) (ofDigits_rewritten valid ds).symm

theorem rewritten_lt (valid : 1 < c) : ∀ d ∈ rewritten b c ds, d < c := by
  intro d inside
  rcases List.mem_append.mp inside with zero | digit
  · rw [eq_zero_of_mem_takeWhile zero]
    exact Nat.zero_lt_of_lt valid
  · exact digits_lt valid d (List.mem_reverse.mp digit)

/-! ### Texts -/

/-- The letter of a digit. -/
def letter (d : Nat) : Char :=
  alphabet.getD d '1'

/-- The digit of a letter. -/
def value? (c : Char) : Option Nat :=
  alphabet.findIdx? (· == c)

theorem value?_letter {d : Nat} (small : d < 58) : value? (letter d) = some d := by
  have all : ∀ d < 58, value? (letter d) = some d := by decide +kernel
  exact all d small

theorem mapM_value?_letters (small : ∀ d ∈ ds, d < 58) : (ds.map letter).mapM value? = some ds := by
  induction ds with
  | nil => rfl
  | cons d ds ih =>
    obtain ⟨first, others⟩ := List.forall_mem_cons.mp small
    rw [List.map_cons, List.mapM_cons, value?_letter first, ih others]
    rfl

theorem letter_of_value? {c : Char} {d : Nat} (read : value? c = some d) : d < 58 ∧ letter d = c := by
  obtain ⟨small, same, -⟩ := List.findIdx?_eq_some_iff_getElem.mp read
  refine ⟨small, ?_⟩
  rw [letter, List.getD_eq_getElem?_getD, List.getElem?_eq_getElem small, Option.getD_some]
  exact beq_iff_eq.mp same

theorem letters_of_mapM_value? {cs : List Char} (read : cs.mapM value? = some ds) :
    (∀ d ∈ ds, d < 58) ∧ ds.map letter = cs := by
  induction cs generalizing ds with
  | nil =>
    obtain rfl := Option.some.inj read
    exact ⟨nofun, rfl⟩
  | cons c cs ih =>
    simp only [List.mapM_cons, Option.bind_eq_bind, Option.bind_eq_some_iff, Option.pure_def,
      Option.some.injEq] at read
    obtain ⟨d, first, others, later, rfl⟩ := read
    obtain ⟨small, same⟩ := letter_of_value? first
    obtain ⟨all, rest⟩ := ih later
    exact ⟨List.forall_mem_cons.mpr ⟨small, all⟩, by rw [List.map_cons, same, rest]⟩

/-! ### Bytes as digits -/

theorem takeWhile_toNat (bs : Bytes) :
    (bs.map UInt8.toNat).takeWhile (· == 0) = (bs.takeWhile (· == 0)).map UInt8.toNat := by
  have same (b : UInt8) : (b.toNat == 0) = (b == 0) := by
    rw [Bool.eq_iff_iff, beq_iff_eq, beq_iff_eq, ← UInt8.toNat_inj]
    rfl
  simp only [List.takeWhile_map, Function.comp_def, same]

theorem ofDigits_toNat (bs : Bytes) : ofDigits 256 (bs.map UInt8.toNat) = ofBigEndian bs := by
  rw [ofDigits, List.foldl_map]
  rfl

theorem toNat_lt_of_mem (bs : Bytes) : ∀ d ∈ bs.map UInt8.toNat, d < 256 :=
  List.forall_mem_map.mpr fun b _ => b.toNat_lt

theorem encodeChars_eq (bs : Bytes) :
    encodeChars bs = (rewritten 256 58 (bs.map UInt8.toNat)).map letter := by
  have ones : ∀ b ∈ bs.takeWhile (· == 0), '1' = letter b.toNat := by
    intro b inside
    rw [beq_iff_eq.mp (List.mem_takeWhile_imp (p := (· == 0)) inside)]
    rfl
  rw [encodeChars, rewritten, takeWhile_toNat, ofDigits_toNat, List.map_append, List.map_map,
    List.map_congr_left ones]
  rfl

theorem decodeChars?_eq (cs : List Char) :
    decodeChars? cs = (cs.mapM value?).map fun ds => (rewritten 58 256 ds).map UInt8.ofNat := by
  change ((cs.mapM value?).bind fun ds => some _) = _
  cases cs.mapM value? with
  | none => rfl
  | some ds =>
    have zeros : ∀ d ∈ ds.takeWhile (· == 0), (0 : UInt8) = UInt8.ofNat d := by
      intro d inside
      rw [eq_zero_of_mem_takeWhile inside]
      rfl
    rw [Option.bind_some, Option.map_some, rewritten, List.map_append, List.map_congr_left zeros]

theorem decodeChars?_encodeChars (bs : Bytes) : decodeChars? (encodeChars bs) = some bs := by
  rw [decodeChars?_eq, encodeChars_eq, mapM_value?_letters (rewritten_lt (by decide)), Option.map_some,
    rewritten_rewritten (by decide) (toNat_lt_of_mem bs) (by decide), List.map_map]
  simp only [Function.comp_def, UInt8.ofNat_toNat, List.map_id']

theorem encodeChars_of_decodeChars? {cs : List Char} {bs : Bytes} (read : decodeChars? cs = some bs) :
    encodeChars bs = cs := by
  rw [decodeChars?_eq, Option.map_eq_some_iff] at read
  obtain ⟨ds, digits, rfl⟩ := read
  obtain ⟨small, rfl⟩ := letters_of_mapM_value? digits
  have bytes : ((rewritten 58 256 ds).map UInt8.ofNat).map UInt8.toNat = rewritten 58 256 ds := by
    have same : ∀ d ∈ rewritten 58 256 ds, (UInt8.ofNat d).toNat = id d := fun d inside =>
      UInt8.toNat_ofNat_of_lt' (rewritten_lt (by decide) d inside)
    rw [List.map_map]
    exact (List.map_congr_left same).trans (List.map_id _)
  rw [encodeChars_eq, bytes, rewritten_rewritten (by decide) small (by decide)]

theorem decode?_empty : decode? "" = some [] := by
  have none : digits 256 (ofDigits 58 []) = [] := by
    rw [digits_eq (by decide)]
    exact Nat.digits_zero 256
  change some (([] : List Nat).map _ ++ (digits 256 (ofDigits 58 [])).reverse.map UInt8.ofNat) = _
  rw [none]
  rfl

theorem decode?_encode (bs : Bytes) : decode? (encode bs) = some bs := by
  rw [decode?, encode, String.toList_ofList, decodeChars?_encodeChars]

theorem decode?_eq_some_iff {s : String} {bs : Bytes} : decode? s = some bs ↔ s = encode bs := by
  constructor
  · intro read
    rw [encode, encodeChars_of_decodeChars? read, String.ofList_toList]
  · rintro rfl
    exact decode?_encode bs

theorem encode_eq_empty_iff {bs : Bytes} : encode bs = "" ↔ bs = [] := by
  rw [eq_comm, ← decode?_eq_some_iff, decode?_empty, Option.some.injEq, eq_comm]

/-! ### Numerals -/

/-- The characters stand for the digits of one number in base 58, which is that of the bytes, and there are
as many zeros in front of both. -/
def IsNumeral (cs : List Char) (bs : Bytes) : Prop :=
  ∃ ds, cs = ds.map letter ∧ (∀ d ∈ ds, d < 58) ∧ ofDigits 58 ds = ofBigEndian bs ∧
    (ds.takeWhile (· == 0)).length = (bs.takeWhile (· == 0)).length

theorem isNumeral_iff {cs : List Char} {bs : Bytes} : IsNumeral cs bs ↔ cs = encodeChars bs := by
  rw [encodeChars_eq]
  constructor
  · rintro ⟨ds, rfl, small, value, zeros⟩
    rw [rewritten_eq (by decide) small ?_ ?_]
    · rw [takeWhile_toNat, List.length_map, zeros]
    · rw [ofDigits_toNat, value]
  · rintro rfl
    refine ⟨_, rfl, rewritten_lt (by decide), ?_, ?_⟩
    · rw [ofDigits_rewritten (by decide), ofDigits_toNat]
    · rw [takeWhile_rewritten (by decide), takeWhile_toNat, List.length_map]

end MoveTx.Base58
