import MoveTx.Signing.MultiSig
import MoveTx.Proofs.Codec.Lawful
import MoveTx.Proofs.Signing.Envelope

/-!
# Multi-signature keys

Members and a threshold make a key exactly when they are `Sound`, whether they are given or read. The
bytes of a key are read as that key and no others are, so that a key has one binary form.
-/

namespace MoveTx
open Step

namespace MultiSigKey

/-- What members and a threshold must meet to make a key. -/
structure Sound (members : List Member) (threshold : UInt16) : Prop where
  some_member : 1 ≤ members.length
  length_le : members.length ≤ maxMembers
  keys_nodup : (members.map Member.key).Nodup
  keys_sized : ∀ m ∈ members, m.key.bytes.length = m.key.scheme.publicKeyLength
  weight_pos : ∀ m ∈ members, 0 < m.weight.toNat
  threshold_pos : 1 ≤ threshold.toNat
  threshold_le : threshold.toNat ≤ totalWeight members

/-! ### Checking -/

theorem checkDistinct_ok_iff {earlier : List PublicKey} {members : List Member} :
    checkDistinct earlier members = .ok () ↔
      (members.map Member.key).Nodup ∧ ∀ m ∈ members, m.key ∉ earlier := by
  induction members generalizing earlier with
  | nil => simp [checkDistinct]
  | cons m rest ih =>
    rw [checkDistinct]
    by_cases repeated : m.key ∈ earlier
    · simp [repeated]
    · rw [if_neg repeated, ih, List.map_cons, List.nodup_cons, List.forall_mem_cons]
      constructor
      · rintro ⟨distinct, fresh⟩
        refine ⟨⟨fun inside => ?_, distinct⟩, repeated, fun n member => ?_⟩
        · obtain ⟨n, member, same⟩ := List.mem_map.mp inside
          exact fresh n member (same ▸ List.mem_cons_self)
        · exact fun old => fresh n member (List.mem_cons_of_mem _ old)
      · rintro ⟨⟨first, distinct⟩, -, fresh⟩
        refine ⟨distinct, fun n member old => ?_⟩
        rcases List.mem_cons.mp old with same | old
        · exact first (same ▸ List.mem_map_of_mem member)
        · exact fresh n member old

theorem check_ok_iff {members : List Member} {threshold : UInt16} :
    check members threshold = .ok () ↔ Sound members threshold := by
  have zero : threshold = 0 ↔ threshold.toNat = 0 := UInt16.toNat_inj.symm
  have weightless : (members.any fun m => m.weight == 0) = true ↔
      ∃ m ∈ members, m.weight.toNat = 0 := by
    simp [List.any_eq_true, ← UInt8.toNat_inj]
  have counted : (members.isEmpty || decide (maxMembers < members.length)) = true ↔
      members.length = 0 ∨ maxMembers < members.length := by
    simp
  unfold check
  simp only [counted, zero, weightless]
  constructor
  · intro passed
    split at passed
    · cases passed
    rename_i count
    obtain ⟨_, distinct, passed⟩ := except_bind_ok_iff.mp passed
    split at passed
    · cases passed
    rename_i weights
    exact {
      some_member := by omega
      length_le := by omega
      keys_nodup := (checkDistinct_ok_iff.mp distinct).1
      keys_sized := fun m _ => m.key.length_eq
      weight_pos := fun m member => Nat.pos_of_ne_zero fun none =>
        weights (Or.inr (Or.inr ⟨m, member, none⟩))
      threshold_pos := by omega
      threshold_le := by omega }
  · intro sound
    have count := sound.some_member
    have most := sound.length_le
    have weights : ¬ (threshold.toNat = 0 ∨ totalWeight members < threshold.toNat ∨
        ∃ m ∈ members, m.weight.toNat = 0) := by
      rintro (zero | short | ⟨m, member, none⟩)
      · exact absurd sound.threshold_pos (by omega)
      · exact absurd sound.threshold_le (by omega)
      · exact absurd (sound.weight_pos m member) (by omega)
    have distinct : checkDistinct [] members = .ok () :=
      checkDistinct_ok_iff.mpr ⟨sound.keys_nodup, fun _ _ => List.not_mem_nil⟩
    rw [if_neg (by omega), distinct, if_neg weights]
    rfl

theorem sound (k : MultiSigKey) : Sound k.members k.threshold :=
  check_ok_iff.mp k.valid

theorem build_ok_iff {members : List Member} {threshold : UInt16} {k : MultiSigKey} :
    build members threshold = .ok k ↔ k.members = members ∧ k.threshold = threshold := by
  unfold build
  constructor
  · intro built
    split at built
    · obtain rfl := Except.ok.inj built
      exact ⟨rfl, rfl⟩
    · cases built
  · rintro ⟨rfl, rfl⟩
    split
    · rfl
    · rename_i e refused
      cases k.valid.symm.trans refused

theorem exists_build_iff {members : List Member} {threshold : UInt16} :
    (∃ k, build members threshold = .ok k) ↔ Sound members threshold := by
  constructor
  · rintro ⟨k, built⟩
    obtain ⟨rfl, rfl⟩ := build_ok_iff.mp built
    exact k.sound
  · intro sound
    exact ⟨⟨members, threshold, check_ok_iff.mpr sound⟩, build_ok_iff.mpr ⟨rfl, rfl⟩⟩

/-! ### Reading -/

theorem scheme_of_tag_iff {tag : Nat} {s : SignatureScheme} :
    (if tag < 256 then SignatureScheme.ofFlag? (UInt8.ofNat tag) else none) = some s ↔
      tag = s.flag.toNat := by
  have bound := s.flag.toNat_lt
  by_cases small : tag < 256
  · have value : (UInt8.ofNat tag).toNat = tag := UInt8.toNat_ofNat_of_lt' small
    rw [if_pos small, SignatureScheme.ofFlag?_eq_some_iff, ← UInt8.toNat_inj, value]
  · simp only [if_neg small, reduceCtorEq, false_iff]
    omega

/-- The tag fixes the length of the key, so a member ends where its written form ends. -/
theorem memberReader_ok_iff {m : Member} {bs rest : Bytes} :
    memberReader bs = .ok m rest ↔ bs = memberBytes m ++ rest := by
  refine Reader.variant_bind_iff.trans ?_
  constructor
  · rintro ⟨tag, u, -, rfl, h⟩
    generalize known : (if tag < 256 then SignatureScheme.ofFlag? (UInt8.ofNat tag) else none) = found at h
    match found with
    | some (.single s) =>
      obtain rfl := scheme_of_tag_iff.mp known
      obtain ⟨key, _, keyRead, more⟩ := bind_ok_iff.mp h
      obtain ⟨weight, _, weightRead, last⟩ := bind_ok_iff.mp more
      obtain ⟨rfl, rfl⟩ := pure_ok_iff.mp last
      obtain rfl := Reader.fixed_ok_iff.mp keyRead
      obtain rfl := Reader.byte_ok_iff.mp weightRead
      exact (append_three (Codec.uleb s.flag.toNat) key.toBytes [weight] _).symm
    | some .multiSig | none => exact (throw_ok_iff.mp h).elim
  · rintro rfl
    have bound := m.key.scheme.flag.toNat_lt
    have known := scheme_of_tag_iff (s := .single m.key.scheme) |>.mpr rfl
    refine ⟨(SignatureScheme.single m.key.scheme).flag.toNat, _, ?_, append_three _ _ _ _, ?_⟩
    · exact Nat.lt_trans bound (by decide)
    simp only [known]
    refine bind_ok_iff.mpr ⟨⟨m.key.bytes, m.key.length_eq⟩, _, Reader.fixed_ok_iff.mpr rfl, ?_⟩
    exact bind_ok_iff.mpr ⟨m.weight, rest, Reader.byte_ok_iff.mpr rfl, rfl⟩

theorem memberReader_reads (bs : Bytes) (m : Member) (rest : Bytes) :
    memberReader bs = .ok m rest ↔ True ∧ bs = memberBytes m ++ rest :=
  memberReader_ok_iff.trans (and_iff_right trivial).symm

/-- The written form of members and a threshold, also where they make no key. -/
def partsBytes (members : List Member) (threshold : UInt16) : Bytes :=
  Codec.listWith memberBytes members ++ encode threshold

theorem partsReader_ok_iff {members : List Member} {threshold : UInt16} {bs rest : Bytes} :
    partsReader bs = .ok (members, threshold) rest ↔
      members.length ≤ maxSequenceLength ∧ bs = partsBytes members threshold ++ rest := by
  rw [partsBytes, List.append_assoc]
  refine (Reader.list_bind_iff memberReader_reads).trans ?_
  simp only [decode_bind_iff, pure_ok_iff]
  constructor
  · rintro ⟨_, _, ⟨short, -⟩, rfl, _, _, -, rfl, same, rfl⟩
    cases same
    exact ⟨short, rfl⟩
  · rintro ⟨short, rfl⟩
    exact ⟨members, _, ⟨short, fun _ _ => trivial⟩, rfl, threshold, rest, trivial, rfl, rfl, rfl⟩

end MultiSigKey

instance : Readable MultiSigKey where
  readable _ := True

instance : LawfulCodec MultiSigKey :=
  .of_total (fun _ => trivial) fun bs k rest => by
    constructor
    · intro run
      obtain ⟨⟨members, threshold⟩, _, read, checked⟩ := bind_ok_iff.mp run
      obtain ⟨_, rfl⟩ := MultiSigKey.partsReader_ok_iff.mp read
      cases built : MultiSigKey.build members threshold with
      | error e =>
        simp only [built] at checked
        exact (throw_ok_iff.mp checked).elim
      | ok k' =>
        simp only [built] at checked
        obtain ⟨rfl, rfl⟩ := pure_ok_iff.mp checked
        obtain ⟨rfl, rfl⟩ := MultiSigKey.build_ok_iff.mp built
        rfl
    · rintro rfl
      have short : k.members.length ≤ maxSequenceLength :=
        Nat.le_trans k.sound.length_le (by decide)
      refine bind_ok_iff.mpr ⟨(k.members, k.threshold), rest, ?_, ?_⟩
      · exact MultiSigKey.partsReader_ok_iff.mpr ⟨short, rfl⟩
      · have built : MultiSigKey.build k.members k.threshold = .ok k :=
          MultiSigKey.build_ok_iff.mpr ⟨rfl, rfl⟩
        simp only [built]
        rfl

namespace MultiSigKey

/-- The bytes that are read are those of sound members and a threshold, whatever follows them. -/
theorem exists_decode_iff {bs : Bytes} :
    (∃ k rest, (decode : Reader MultiSigKey) bs = .ok k rest) ↔
      ∃ members threshold rest, Sound members threshold ∧ bs = partsBytes members threshold ++ rest := by
  constructor
  · rintro ⟨k, rest, read⟩
    obtain ⟨-, rfl⟩ := decode_ok_iff.mp read
    exact ⟨k.members, k.threshold, rest, k.sound, rfl⟩
  · rintro ⟨members, threshold, rest, sound, rfl⟩
    obtain ⟨k, built⟩ := exists_build_iff.mpr sound
    obtain ⟨rfl, rfl⟩ := build_ok_iff.mp built
    exact ⟨k, rest, decode_ok_iff.mpr ⟨trivial, rfl⟩⟩

/-- The keys a program can have: built from members and a threshold, or read. -/
inductive Obtained (k : MultiSigKey) : Prop
  | built {members : List Member} {threshold : UInt16} (run : build members threshold = .ok k)
  | read {bs rest : Bytes} (run : (decode : Reader MultiSigKey) bs = .ok k rest)

/-- Members and a threshold make a key exactly when they are sound, and bytes begin with a key exactly
when they begin with the written form of sound ones. A key is read back from its bytes, whatever follows
them, and from no other bytes. -/
theorem codec_canonical {k : MultiSigKey} (obtained : k.Obtained) :
    Sound k.members k.threshold ∧
      (∀ rest : Bytes, (decode : Reader MultiSigKey) (encode k ++ rest) = .ok k rest) ∧
      (∀ bs : Bytes, Codec.decodeAll bs = .ok k → encode k = bs) ∧
      (∀ members threshold, (∃ k, build members threshold = .ok k) ↔ Sound members threshold) ∧
      ∀ bs : Bytes, (∃ k rest, (decode : Reader MultiSigKey) bs = .ok k rest) ↔
        ∃ members threshold rest, Sound members threshold ∧ bs = partsBytes members threshold ++ rest := by
  have sound : Sound k.members k.threshold := by
    cases obtained with
    | built run =>
      have made := exists_build_iff.mp ⟨k, run⟩
      obtain ⟨rfl, rfl⟩ := build_ok_iff.mp run
      exact made
    | read run => exact k.sound
  refine ⟨sound, fun rest => ?_, fun bs read => ?_, fun _ _ => exists_build_iff,
    fun _ => exists_decode_iff⟩
  · exact decode_ok_iff.mpr ⟨trivial, rfl⟩
  · exact (decodeAll_ok_iff.mp read).2.symm

def firstKey : PublicKey :=
  ⟨.ed25519, List.replicate 32 7, rfl⟩

def middleKey : PublicKey :=
  ⟨.secp256k1, List.replicate 33 8, rfl⟩

def lastKey : PublicKey :=
  ⟨.secp256r1, List.replicate 33 9, rfl⟩

def trioMembers : List Member :=
  [⟨firstKey, 1⟩, ⟨middleKey, 2⟩, ⟨lastKey, 3⟩]

/-- A key that the first and the last member can sign for, but not the first two. -/
def trio : MultiSigKey :=
  ⟨trioMembers, 4, rfl⟩

def trioBytes : Bytes :=
  [3, 0] ++ List.replicate 32 7 ++ [1, 1] ++ List.replicate 33 8 ++ [2, 2] ++ List.replicate 33 9 ++
    [3, 4, 0]

theorem trio_canonical :
    build trioMembers 4 = .ok trio ∧ Codec.decodeAll trioBytes = .ok trio ∧ encode trio = trioBytes :=
  have built : build trioMembers 4 = .ok trio := rfl
  have read : Codec.decodeAll trioBytes = .ok trio := rfl
  ⟨built, read, (codec_canonical (.built built)).2.2.1 trioBytes read⟩

end MultiSigKey

end MoveTx
