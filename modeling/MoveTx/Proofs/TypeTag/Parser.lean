import Mathlib.Data.List.TakeWhile
import MoveTx.TypeTag.Parser
import MoveTx.Proofs.Address
import MoveTx.Proofs.TypeTag.Binary

/-!
# Words and marks

What the parser of types takes off the front of a text: white space, marks, and words, which are runs of
letters, digits and underscores.
-/

namespace MoveTx
open Step

namespace Identifier

theorem isNameChar_of_isAlpha {c : Char} (letter : c.isAlpha = true) : isNameChar c = true := by
  simp [isNameChar, Char.isAlphanum, letter]

theorem isBlank_of_isNameChar {c : Char} (inside : isNameChar c = true) : Text.isBlank c = false := by
  have classes : isNameChar c = (decide (65 ≤ c.val ∧ c.val ≤ 90) ||
      (97 ≤ c.val && c.val ≤ 122) || (48 ≤ c.val && c.val ≤ 57) || c == '_') := rfl
  have ascii : (48 ≤ c.toNat ∧ c.toNat ≤ 57) ∨ (65 ≤ c.toNat ∧ c.toNat ≤ 90) ∨ c.toNat = 95 ∨
      (97 ≤ c.toNat ∧ c.toNat ≤ 122) := by
    simp only [classes, Bool.or_eq_true, decide_eq_true_eq, beq_iff_eq, Bool.and_eq_true,
      UInt32.le_iff_toNat_le] at inside
    rcases inside with ((upper | lower) | digit) | rfl
    · exact Or.inr (Or.inl upper)
    · exact Or.inr (Or.inr (Or.inr lower))
    · exact Or.inl digit
    · exact Or.inr (Or.inr (Or.inl rfl))
  unfold Text.isBlank
  simp only [Bool.or_eq_false_iff, Bool.and_eq_false_iff, decide_eq_false_iff_not, beq_eq_false_iff_ne]
  omega

end Identifier

theorem PrimitiveType.ofName?_eq_some_iff {s : String} {p : PrimitiveType} :
    ofName? s = some p ↔ s = p.name := by
  constructor
  · intro found
    unfold ofName? at found
    have same := List.find?_some found
    exact (beq_iff_eq.mp same).symm
  · rintro rfl
    cases p <;> decide +kernel

namespace TypeTag

/-! ### Words -/

/-- Characters that are taken off a text together. -/
def IsWord (w : List Char) : Prop :=
  w ≠ [] ∧ w.all Identifier.isNameChar = true

instance (w : List Char) : Decidable (IsWord w) :=
  inferInstanceAs (Decidable (_ ∧ _))

theorem isWord_iff {w : List Char} : IsWord w ↔ w ≠ [] ∧ ∀ c ∈ w, Identifier.isNameChar c = true := by
  rw [IsWord, List.all_eq_true]

theorem isWord_primitive (p : PrimitiveType) : IsWord p.name.toList := by
  cases p <;> decide +kernel

theorem isWord_vector : IsWord "vector".toList := by
  decide

theorem isWord_identifier (i : Identifier) : IsWord i.name.toList := by
  have valid := i.valid
  unfold Identifier.isValid at valid
  cases name : i.name.toList with
  | nil => simp [name, Identifier.isValidChars] at valid
  | cons c cs =>
    simp only [name, Identifier.isValidChars, Bool.and_eq_true, Bool.or_eq_true, beq_iff_eq,
      List.all_eq_true] at valid
    refine isWord_iff.mpr ⟨List.cons_ne_nil c cs, List.forall_mem_cons.mpr ⟨?_, valid.2⟩⟩
    rcases valid.1 with letter | ⟨rfl, -⟩
    · exact Identifier.isNameChar_of_isAlpha letter
    · rfl

theorem isWord_address (a : Address) : IsWord a.text.toList := by
  have digits : ∀ n < 16, Identifier.isNameChar (Hex.digit n) = true := by decide +kernel
  rw [Address.toList_text]
  refine isWord_iff.mpr ⟨List.cons_ne_nil _ _, ?_⟩
  simp only [List.forall_mem_cons]
  refine ⟨rfl, rfl, fun c inside => ?_⟩
  exact Hex.forall_mem_encodeChars (p := fun c => Identifier.isNameChar c = true) digits inside

/-- Whether a word ends where `rest` begins. It goes on over every character of a word. -/
def StopsWord (rest : List Char) : Prop :=
  ∀ c ∈ rest.head?, Identifier.isNameChar c = false

theorem stopsWord_nil : StopsWord [] :=
  nofun

theorem stopsWord_cons {c : Char} (mark : Identifier.isNameChar c = false) (rest : List Char) :
    StopsWord (c :: rest) := by
  intro first same
  obtain rfl := Option.some.inj same
  exact mark

theorem trimStart_word {w : List Char} (isWord : IsWord w) (rest : List Char) :
    Text.trimStart (w ++ rest) = w ++ rest := by
  obtain ⟨some, all⟩ := isWord_iff.mp isWord
  obtain ⟨c, cs, rfl⟩ := List.exists_cons_of_ne_nil some
  have seen := Identifier.isBlank_of_isNameChar (all c List.mem_cons_self)
  exact List.dropWhile_cons_of_neg (by simp [seen])

/-- A word is taken off what does not go on with a character of a word. -/
theorem takeWhile_word {w rest : List Char} (isWord : IsWord w) (stops : StopsWord rest) :
    (w ++ rest).takeWhile Identifier.isNameChar = w := by
  rw [List.takeWhile_append_of_pos (isWord_iff.mp isWord).2]
  cases rest with
  | nil => simp
  | cons c rest => simp [stops c rfl]

theorem dropWhile_word {w rest : List Char} (isWord : IsWord w) (stops : StopsWord rest) :
    (w ++ rest).dropWhile Identifier.isNameChar = rest := by
  rw [List.dropWhile_append_of_pos (isWord_iff.mp isWord).2]
  cases rest with
  | nil => rfl
  | cons c rest => exact List.dropWhile_cons_of_neg (by simp [stops c rfl])

end TypeTag

namespace TypeTag.Parser

theorem skipBlanks_next {cs rest : List Char} (next : Text.trimStart cs = rest) :
    skipBlanks cs = .ok () rest := by
  rw [← next]
  rfl

theorem eat_next {token : String} {cs rest : List Char}
    (next : Text.trimStart cs = token.toList ++ rest) : eat token cs = .ok true rest := by
  have taken : (token.toList ++ rest).drop token.length = rest := by
    rw [← String.length_toList, List.drop_left]
  unfold eat
  rw [bind_of_ok (skipBlanks_next next), get_bind, if_pos (by simp), taken]
  rfl

theorem eat_absent {token : String} {cs : List Char}
    (absent : ¬ token.toList <+: Text.trimStart cs) : eat token cs = .ok false (Text.trimStart cs) := by
  unfold eat
  rw [bind_of_ok (skipBlanks_next rfl), get_bind, if_neg (by simpa using absent)]
  rfl

theorem word_ok_iff {w cs rest : List Char} :
    word cs = .ok w rest ↔ Text.trimStart cs = w ++ rest ∧ IsWord w ∧ StopsWord rest := by
  constructor
  · intro read
    unfold word at read
    rw [bind_of_ok (skipBlanks_next rfl), get_bind] at read
    have parts := List.takeWhile_append_dropWhile (p := Identifier.isNameChar) (l := Text.trimStart cs)
    have inside : ∀ c ∈ (Text.trimStart cs).takeWhile Identifier.isNameChar, _ :=
      fun c => List.mem_takeWhile_imp
    have stops := List.head?_dropWhile_not Identifier.isNameChar (Text.trimStart cs)
    cases taken : (Text.trimStart cs).takeWhile Identifier.isNameChar with
    | nil =>
      rw [taken] at read
      exact (throw_ok_iff.mp read).elim
    | cons c w =>
      rw [taken] at read parts inside
      obtain ⟨_, _, put, done⟩ := bind_ok_iff.mp read
      obtain rfl := set_ok_iff.mp put
      obtain ⟨rfl, rfl⟩ := pure_ok_iff.mp done
      refine ⟨parts.symm, isWord_iff.mpr ⟨List.cons_ne_nil c w, inside⟩, fun d first => ?_⟩
      rw [first] at stops
      exact stops
  · rintro ⟨next, isWord, stops⟩
    unfold word
    rw [bind_of_ok (skipBlanks_next next), get_bind, takeWhile_word isWord stops,
      dropWhile_word isWord stops]
    obtain ⟨c, cs, rfl⟩ := List.exists_cons_of_ne_nil isWord.1
    rfl

theorem identifier_ok_iff {i : Identifier} {cs rest : List Char} :
    identifier cs = .ok i rest ↔ word cs = .ok i.name.toList rest := by
  unfold identifier
  rw [bind_ok_iff]
  constructor
  · rintro ⟨w, mid, read, named⟩
    cases known : Identifier.ofString? (String.ofList w) with
    | none =>
      rw [known] at named
      exact (throw_ok_iff.mp named).elim
    | some i' =>
      rw [known] at named
      obtain ⟨rfl, rfl⟩ := pure_ok_iff.mp named
      unfold Identifier.ofString? at known
      split at known
      · obtain rfl := Option.some.inj known
        rwa [String.toList_ofList]
      · cases known
  · intro read
    have valid : Identifier.ofString? i.name = some i := by
      unfold Identifier.ofString?
      rw [dif_pos i.valid]
    refine ⟨_, rest, read, ?_⟩
    rw [String.ofList_toList, valid]
    rfl

end TypeTag.Parser

end MoveTx
