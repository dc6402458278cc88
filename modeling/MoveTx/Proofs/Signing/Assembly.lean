import Mathlib.Data.List.Forall2
import Mathlib.Data.List.Nodup
import MoveTx.Proofs.Signing.MultiSigKey

/-!
# Assembling signatures

Signatures are assembled when they are by different members of the key whose weights reach the threshold.
The result depends on who signed what and not on the order in which the signatures come: the bitmap names
the members that signed, and their signatures stand in the order of the members.
-/

namespace MoveTx
open Step

namespace MultiSigEnvelope

/-! ### Bitmaps -/

theorem lt_of_testBit {n k i : Nat} (small : n < 2 ^ k) (set : n.testBit i = true) : i < k :=
  (Nat.pow_lt_pow_iff_right (by decide)).mp
    (Nat.lt_of_le_of_lt (Nat.ge_two_pow_of_testBit set) small)

theorem mem_setBits {bitmap : UInt16} {i : Nat} :
    i ∈ setBits bitmap ↔ bitmap.toNat.testBit i = true := by
  unfold setBits
  rw [List.mem_filter, List.mem_range]
  exact and_iff_right_of_imp fun set => lt_of_testBit bitmap.toNat_lt set

theorem setBits_lt_iff {bitmap : UInt16} {n : Nat} :
    (∀ i ∈ setBits bitmap, i < n) ↔ bitmap.toNat < 2 ^ n := by
  constructor
  · intro near
    apply Nat.lt_pow_two_of_testBit
    intro i far
    by_contra set
    exact absurd (near i (mem_setBits.mpr (by simpa using set))) (Nat.not_lt.mpr far)
  · exact fun small i set => lt_of_testBit small (mem_setBits.mp set)

theorem setBits_ascending (bitmap : UInt16) : (setBits bitmap).Pairwise (· < ·) :=
  List.pairwise_lt_range.filter _

/-- A bitmap that names no place from the greatest number of members on names signers only. -/
theorem signers_eq {e : MultiSigEnvelope} (near : ∀ i ∈ setBits e.bitmap, i < maxMembers) :
    e.signers = setBits e.bitmap := by
  unfold signers
  rw [List.filter_eq_self]
  simpa using near

end MultiSigEnvelope

namespace MultiSigKey
open MultiSigEnvelope

theorem testBit_bitmapOf (slots : List (Option Bytes64)) (i : Nat) :
    (bitmapOf slots).testBit i = (slots[i]?.join).isSome := by
  induction slots generalizing i with
  | nil => simp [bitmapOf]
  | cons slot rest ih =>
    rw [bitmapOf]
    cases i with
    | zero => cases slot <;> simp [Nat.testBit_zero, Nat.add_mod]
    | succ i =>
      have half : ((if slot.isSome then 1 else 0) + 2 * bitmapOf rest) / 2 = bitmapOf rest := by
        split <;> omega
      rw [Nat.testBit_succ, half, ih, List.getElem?_cons_succ]

theorem bitmapOf_lt (slots : List (Option Bytes64)) : bitmapOf slots < 2 ^ slots.length := by
  induction slots with
  | nil => simp [bitmapOf]
  | cons slot rest ih =>
    rw [bitmapOf, List.length_cons, Nat.pow_succ]
    split <;> omega

/-- The places of the filled slots and what fills them, in step. -/
theorem filled_places {slots : List (Option Bytes64)} {n : Nat} (enough : slots.length ≤ n) :
    List.Forall₂ (fun i s => slots[i]? = some (some s))
      ((List.range n).filter fun i => (slots[i]?.join).isSome) (slots.filterMap id) := by
  induction slots generalizing n with
  | nil => simp
  | cons slot rest ih =>
    obtain ⟨n, rfl⟩ := Nat.exists_eq_add_of_le' (Nat.lt_of_lt_of_le (Nat.succ_pos _) enough)
    have others := ih (Nat.le_of_succ_le_succ enough)
    rw [List.range_succ_eq_map, List.filter_cons, List.filter_map]
    cases slot with
    | none => simpa [Function.comp_def, List.forall₂_map_left_iff] using others
    | some s => simpa [Function.comp_def, List.forall₂_map_left_iff] using others

theorem toNat_bitmapOf {slots : List (Option Bytes64)} (few : slots.length ≤ 16) :
    (UInt16.ofNat (bitmapOf slots)).toNat = bitmapOf slots :=
  UInt16.toNat_ofNat_of_lt'
    (Nat.lt_of_lt_of_le (bitmapOf_lt slots) (Nat.pow_le_pow_right (by decide) few))

theorem setBits_bitmapOf {slots : List (Option Bytes64)} (few : slots.length ≤ 16) :
    setBits (UInt16.ofNat (bitmapOf slots)) =
      (List.range 16).filter fun i => (slots[i]?.join).isSome := by
  unfold setBits
  rw [toNat_bitmapOf few]
  congr 1
  funext i
  exact testBit_bitmapOf slots i

theorem filledWeight_map (members : List Member) (f : Member → Option Bytes64) :
    filledWeight members (members.map f) = totalWeight (members.filter fun m => (f m).isSome) := by
  unfold filledWeight
  induction members with
  | nil => rfl
  | cons m rest ih =>
    rw [List.map_cons, List.zip_cons_cons, List.filter_cons]
    cases filled : f m with
    | none => simpa [filled] using ih
    | some s => simpa [filled, totalWeight] using ih

/-! ### Who signed -/

/-- The signature of a member among those given. -/
def signatureFor (es : List Envelope) (m : Member) : Option Bytes64 :=
  (es.find? fun e => e.key == m.key).map Envelope.signature

/-- The members whose signatures are given. -/
def signing (k : MultiSigKey) (es : List Envelope) : List Member :=
  k.members.filter fun m => m.key ∈ es.map Envelope.key

theorem signatureFor_concat (es : List Envelope) (e : Envelope) (m : Member) :
    signatureFor (es ++ [e]) m =
      (signatureFor es m).or (if e.key = m.key then some e.signature else none) := by
  unfold signatureFor
  rw [List.find?_append, Option.map_or, List.find?_singleton]
  by_cases same : e.key = m.key
  · simp [same]
  · simp [same]

theorem isSome_signatureFor {es : List Envelope} {m : Member} :
    (signatureFor es m).isSome = true ↔ m.key ∈ es.map Envelope.key := by
  unfold signatureFor
  rw [Option.isSome_map, List.find?_isSome, List.mem_map]
  simp only [beq_iff_eq]

theorem signatureFor_eq_some_iff {es : List Envelope} (distinct : (es.map Envelope.key).Nodup)
    {m : Member} {s : Bytes64} :
    signatureFor es m = some s ↔ ∃ e ∈ es, e.key = m.key ∧ e.signature = s := by
  unfold signatureFor
  rw [Option.map_eq_some_iff]
  constructor
  · rintro ⟨e, found, rfl⟩
    exact ⟨e, List.mem_of_find?_eq_some found, by simpa using List.find?_some found, rfl⟩
  · rintro ⟨e, given, same, rfl⟩
    obtain ⟨e', found⟩ : ∃ e', (es.find? fun e => e.key == m.key) = some e' := by
      rw [← Option.isSome_iff_exists, List.find?_isSome]
      exact ⟨e, given, by simpa using same⟩
    have same' : e'.key = m.key := by simpa using List.find?_some found
    have unique : e' = e :=
      List.inj_on_of_nodup_map distinct (List.mem_of_find?_eq_some found) given (same'.trans same.symm)
    exact ⟨e', found, by rw [unique]⟩

theorem signatureFor_perm {es fs : List Envelope} (distinct : (es.map Envelope.key).Nodup)
    (perm : es.Perm fs) : signatureFor es = signatureFor fs := by
  have distinct' : (fs.map Envelope.key).Nodup := (perm.map Envelope.key).nodup_iff.mp distinct
  funext m
  apply Option.ext
  intro s
  rw [signatureFor_eq_some_iff distinct, signatureFor_eq_some_iff distinct']
  simp only [perm.mem_iff]

/-! ### Placing -/

theorem place_unique (k : MultiSigKey) {i j : Nat} {m n : Member} (first : k.members[i]? = some m)
    (second : k.members[j]? = some n) (same : m.key = n.key) : i = j := by
  have inside : i < (k.members.map Member.key).length := by
    rw [List.length_map]
    exact (List.getElem?_eq_some_iff.mp first).1
  apply (List.getElem?_inj inside k.sound.keys_nodup).mp
  rw [List.getElem?_map, List.getElem?_map, first, second, Option.map_some, Option.map_some, same]

/-- Filling the slot of the signer adds the signature to those that are placed. -/
theorem set_slot (k : MultiSigKey) {done : List Envelope} {e : Envelope} {i : Nat} {m : Member}
    (at_i : k.members[i]? = some m) (same : m.key = e.key) (free : signatureFor done m = none) :
    (k.members.map (signatureFor done)).set i (some e.signature) =
      k.members.map (signatureFor (done ++ [e])) := by
  apply List.ext_getElem?
  intro j
  rw [List.getElem?_set, List.getElem?_map, List.getElem?_map]
  by_cases here : i = j
  · subst here
    have inside : i < (k.members.map (signatureFor done)).length := by
      rw [List.length_map]
      exact (List.getElem?_eq_some_iff.mp at_i).1
    rw [if_pos rfl, if_pos inside, at_i, Option.map_some, signatureFor_concat, free, if_pos same.symm]
    rfl
  · rw [if_neg here]
    cases at_j : k.members[j]? with
    | none => rfl
    | some n =>
      have other : e.key ≠ n.key := fun equal => here (k.place_unique at_i at_j (same.trans equal))
      rw [Option.map_some, Option.map_some, signatureFor_concat, if_neg other, Option.or_none]

theorem place_ok_iff (k : MultiSigKey) {done es : List Envelope} {slots : List (Option Bytes64)}
    (distinct : (done.map Envelope.key).Nodup) :
    k.place (k.members.map (signatureFor done)) es = .ok slots ↔
      (∀ e ∈ es, ∃ m ∈ k.members, m.key = e.key) ∧ ((done ++ es).map Envelope.key).Nodup ∧
        slots = k.members.map (signatureFor (done ++ es)) := by
  -- The slots hold what is placed already; each step moves one signature over to `done`.
  induction es generalizing done with
  | nil => simp [place, distinct, eq_comm]
  | cons e rest ih =>
    rw [place, List.forall_mem_cons]
    cases found : k.members.findIdx? fun m => m.key == e.key with
    | none =>
      have foreign : ¬ ∃ m ∈ k.members, m.key = e.key := by
        simpa [List.findIdx?_eq_none_iff] using found
      exact iff_of_false nofun fun placed => foreign placed.1.1
    | some i =>
      obtain ⟨inside, matched, -⟩ := List.findIdx?_eq_some_iff_getElem.mp found
      have at_i : k.members[i]? = some k.members[i] := List.getElem?_eq_getElem inside
      have same : k.members[i].key = e.key := by simpa using matched
      have member : ∃ m ∈ k.members, m.key = e.key := ⟨_, List.getElem_mem inside, same⟩
      have slot : (k.members.map (signatureFor done))[i]? = some (signatureFor done k.members[i]) := by
        rw [List.getElem?_map, at_i, Option.map_some]
      simp only [slot]
      cases old : signatureFor done k.members[i] with
      | some s =>
        -- The signer has a signature among those placed before.
        have repeated : e.key ∈ done.map Envelope.key := by
          rw [← same, ← isSome_signatureFor, old]
          rfl
        have clash : ¬ ((done ++ e :: rest).map Envelope.key).Nodup := by
          rw [List.map_append, List.map_cons, List.nodup_middle, List.nodup_cons]
          exact fun unique => unique.1 (List.mem_append_left _ repeated)
        exact iff_of_false nofun fun placed => clash placed.2.1
      | none =>
        have fresh : e.key ∉ done.map Envelope.key := by
          rw [← same, ← isSome_signatureFor, old]
          exact Bool.false_ne_true
        have distinct' : ((done ++ [e]).map Envelope.key).Nodup := by
          rw [List.map_append, List.map_singleton]
          exact List.nodup_append_comm.mp (List.nodup_cons.mpr ⟨fresh, distinct⟩)
        rw [k.set_slot at_i same old, ih distinct', List.append_assoc, List.singleton_append]
        exact and_congr_left fun _ => (and_iff_right member).symm

/-! ### Assembling -/

/-- Signatures that are assembled: all by members, no two by the same, and enough of them. -/
structure Admits (k : MultiSigKey) (es : List Envelope) : Prop where
  members : ∀ e ∈ es, ∃ m ∈ k.members, m.key = e.key
  distinct : (es.map Envelope.key).Nodup
  reaches : k.threshold.toNat ≤ totalWeight (k.signing es)

/-- The envelope in which each member has the signature given for it. -/
def assembled (k : MultiSigKey) (es : List Envelope) : MultiSigEnvelope :=
  ⟨UInt16.ofNat (bitmapOf (k.members.map (signatureFor es))),
    (k.members.map (signatureFor es)).filterMap id, k⟩

theorem filledWeight_signing (k : MultiSigKey) (es : List Envelope) :
    filledWeight k.members (k.members.map (signatureFor es)) = totalWeight (k.signing es) := by
  rw [filledWeight_map, signing]
  congr 2
  funext m
  rw [Bool.eq_iff_iff, isSome_signatureFor, decide_eq_true_iff]

theorem combine_ok_iff {k : MultiSigKey} {es : List Envelope} {v : MultiSigEnvelope} :
    k.combine es = .ok v ↔ k.Admits es ∧ v = k.assembled es := by
  have none : (k.members.map fun _ => (none : Option Bytes64)) = k.members.map (signatureFor []) := rfl
  have start : (([] : List Envelope).map Envelope.key).Nodup := List.nodup_nil
  unfold combine
  simp only [except_bind_ok_iff, none, k.place_ok_iff start, List.nil_append]
  constructor
  · rintro ⟨_, ⟨members, distinct, rfl⟩, made⟩
    rw [filledWeight_signing] at made
    split at made
    · cases made
    · rename_i enough
      exact ⟨⟨members, distinct, Nat.le_of_not_lt enough⟩, (Except.ok.inj made).symm⟩
  · rintro ⟨admits, rfl⟩
    refine ⟨_, ⟨admits.members, admits.distinct, rfl⟩, ?_⟩
    rw [filledWeight_signing, if_neg (Nat.not_lt.mpr admits.reaches)]
    rfl

/-- The member at a place has a signature among those given. -/
def SignedAs (k : MultiSigKey) (es : List Envelope) (i : Nat) (s : Bytes64) : Prop :=
  ∃ m e, k.members[i]? = some m ∧ e ∈ es ∧ e.key = m.key ∧ e.signature = s

/-- An envelope whose bitmap names exactly the members that signed, with their signatures in the order of
the members. -/
structure Carries (k : MultiSigKey) (es : List Envelope) (v : MultiSigEnvelope) : Prop where
  key_eq : v.key = k
  bit_iff : ∀ i, v.bitmap.toNat.testBit i = true ↔ ∃ s, k.SignedAs es i s
  signers_eq : v.signers = setBits v.bitmap
  ascending : v.signers.Pairwise (· < ·)
  signatures : List.Forall₂ (k.SignedAs es) v.signers v.signatures

theorem slot_eq_some_iff (k : MultiSigKey) {es : List Envelope} (distinct : (es.map Envelope.key).Nodup)
    {i : Nat} {s : Bytes64} :
    (k.members.map (signatureFor es))[i]? = some (some s) ↔ k.SignedAs es i s := by
  rw [List.getElem?_map, Option.map_eq_some_iff]
  simp only [signatureFor_eq_some_iff distinct]
  constructor
  · rintro ⟨m, at_i, e, given, same, signature⟩
    exact ⟨m, e, at_i, given, same, signature⟩
  · rintro ⟨m, e, at_i, given, same, signature⟩
    exact ⟨m, at_i, e, given, same, signature⟩

theorem slots_le (k : MultiSigKey) (es : List Envelope) :
    (k.members.map (signatureFor es)).length ≤ 16 := by
  rw [List.length_map]
  exact Nat.le_trans k.sound.length_le (by decide)

theorem assembled_bit_iff (k : MultiSigKey) {es : List Envelope} (distinct : (es.map Envelope.key).Nodup)
    {i : Nat} : (k.assembled es).bitmap.toNat.testBit i = true ↔ ∃ s, k.SignedAs es i s := by
  simp only [← k.slot_eq_some_iff distinct]
  rw [assembled, toNat_bitmapOf (k.slots_le es), testBit_bitmapOf, Option.isSome_iff_exists]
  simp only [Option.join_eq_some_iff]

theorem SignedAs.lt {k : MultiSigKey} {es : List Envelope} {i : Nat} {s : Bytes64}
    (signed : k.SignedAs es i s) : i < k.members.length := by
  obtain ⟨m, _, at_i, -⟩ := signed
  exact (List.getElem?_eq_some_iff.mp at_i).1

theorem assembled_carries (k : MultiSigKey) {es : List Envelope} (distinct : (es.map Envelope.key).Nodup) :
    k.Carries es (k.assembled es) := by
  have signers : (k.assembled es).signers = setBits (k.assembled es).bitmap := by
    refine signers_eq fun i set => ?_
    obtain ⟨s, signed⟩ := (k.assembled_bit_iff distinct).mp (mem_setBits.mp set)
    exact Nat.lt_of_lt_of_le signed.lt k.sound.length_le
  have places := filled_places (k.slots_le es)
  rw [← setBits_bitmapOf (k.slots_le es)] at places
  exact {
    key_eq := rfl
    bit_iff := fun i => k.assembled_bit_iff distinct
    signers_eq := signers
    ascending := signers ▸ setBits_ascending _
    signatures := signers ▸ places.imp fun _ _ => (k.slot_eq_some_iff distinct).mp }

theorem combine_perm {k : MultiSigKey} {es fs : List Envelope} {v : MultiSigEnvelope}
    (perm : fs.Perm es) (run : k.combine es = .ok v) : k.combine fs = .ok v := by
  obtain ⟨admits, rfl⟩ := combine_ok_iff.mp run
  have signing : k.signing fs = k.signing es := by
    unfold MultiSigKey.signing
    simp only [(perm.map Envelope.key).mem_iff]
  refine combine_ok_iff.mpr ⟨⟨?_, ?_, ?_⟩, ?_⟩
  · exact fun e given => admits.members e (perm.mem_iff.mp given)
  · exact (perm.map Envelope.key).nodup_iff.mpr admits.distinct
  · rw [signing]
    exact admits.reaches
  · rw [assembled, assembled, signatureFor_perm admits.distinct perm.symm]

/-- Signatures are assembled exactly when they are by members, no two by the same, whose weights reach the
threshold. The envelope names who signed, with the signatures in the order of the members, in whatever
order they are given. -/
theorem combine_exact (k : MultiSigKey) (es : List Envelope) :
    ((∃ v, k.combine es = .ok v) ↔ k.Admits es) ∧
      ∀ v, k.combine es = .ok v →
        k.Carries es v ∧ ∀ fs : List Envelope, fs.Perm es → k.combine fs = .ok v := by
  refine ⟨⟨?_, fun admits => ?_⟩, fun v run => ?_⟩
  · rintro ⟨v, run⟩
    exact (combine_ok_iff.mp run).1
  · exact ⟨_, combine_ok_iff.mpr ⟨admits, rfl⟩⟩
  · obtain ⟨admits, rfl⟩ := combine_ok_iff.mp run
    exact ⟨k.assembled_carries admits.distinct, fun fs perm => combine_perm perm run⟩

def byFirst : Envelope :=
  ⟨⟨List.replicate 64 17, rfl⟩, firstKey⟩

def byLast : Envelope :=
  ⟨⟨List.replicate 64 19, rfl⟩, lastKey⟩

theorem trio_combine :
    trio.combine [byFirst, byLast] = .ok ⟨5, [byFirst.signature, byLast.signature], trio⟩ ∧
      trio.combine [byLast, byFirst] = .ok ⟨5, [byFirst.signature, byLast.signature], trio⟩ :=
  have run : trio.combine [byFirst, byLast] = .ok ⟨5, [byFirst.signature, byLast.signature], trio⟩ := rfl
  ⟨run, ((combine_exact trio _).2 _ run).2 _ (.swap _ _ _)⟩

end MultiSigKey

end MoveTx
