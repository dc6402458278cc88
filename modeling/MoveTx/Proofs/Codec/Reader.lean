import MoveTx.Codec.Basic
import MoveTx.Proofs.Bytes
import MoveTx.Proofs.Codec.VarInt

/-!
# What readers accept

For each reader, the byte strings on which it succeeds, the value it then gives and the bytes it
leaves. A reader accepts exactly what the writer of the same form produces, which sequences, options and
texts inherit from their parts.
-/

namespace MoveTx.Reader
open Step

theorem result_ok_iff {α : Type} {r : Reader α} {bs : Bytes} {a : α} :
    r.result bs = .ok a ↔ ∃ rest, r bs = .ok a rest := by
  unfold result EStateM.run
  cases r bs with
  | ok b rest => simp
  | error e rest => simp

/-! ### Raw bytes -/

theorem take_ok_iff {n : Nat} {bs taken rest : Bytes} :
    take n bs = .ok taken rest ↔ taken.length = n ∧ bs = taken ++ rest := by
  unfold take
  rw [bind_ok_iff]
  constructor
  · rintro ⟨_, _, read, h⟩
    obtain ⟨rfl, rfl⟩ := get_ok_iff.mp read
    split at h
    · rename_i enough
      obtain ⟨_, _, put, h⟩ := bind_ok_iff.mp h
      obtain rfl := set_ok_iff.mp put
      obtain ⟨rfl, rfl⟩ := pure_ok_iff.mp h
      exact ⟨List.length_take_of_le (hasAtLeast_iff.mp enough), (List.take_append_drop n _).symm⟩
    · exact (throw_ok_iff.mp h).elim
  · rintro ⟨rfl, rfl⟩
    refine ⟨_, _, get_ok_iff.mpr ⟨rfl, rfl⟩, ?_⟩
    rw [if_pos (hasAtLeast_iff.mpr (by simp)), bind_ok_iff]
    refine ⟨(), _, rfl, ?_⟩
    rw [List.take_left, List.drop_left]
    rfl

theorem byte_ok_iff {b : UInt8} {bs rest : Bytes} : byte bs = .ok b rest ↔ bs = b :: rest := by
  cases bs with
  | nil => exact ⟨fun h => (throw_ok_iff.mp h).elim, nofun⟩
  | cons c bs =>
    change EStateM.Result.ok c bs = _ ↔ _
    simp

theorem finish_ok_iff {bs rest : Bytes} {u : Unit} : finish bs = .ok u rest ↔ bs = [] ∧ rest = [] := by
  cases bs with
  | nil =>
    change EStateM.Result.ok () [] = _ ↔ _
    simp [eq_comm]
  | cons b bs =>
    constructor
    · exact fun h => (throw_ok_iff.mp h).elim
    · exact fun h => nomatch h.1

theorem littleEndian_ok_iff {width n : Nat} {bs rest : Bytes} :
    littleEndian width bs = .ok n rest ↔ n < 256 ^ width ∧ bs = MoveTx.littleEndian width n ++ rest := by
  unfold littleEndian
  rw [map_ok_iff]
  constructor
  · rintro ⟨taken, read, rfl⟩
    obtain ⟨rfl, rfl⟩ := take_ok_iff.mp read
    exact ⟨ofLittleEndian_lt taken, by rw [littleEndian_ofLittleEndian]⟩
  · rintro ⟨small, rfl⟩
    exact ⟨_, take_ok_iff.mpr ⟨length_littleEndian width n, rfl⟩, ofLittleEndian_littleEndian small⟩

/-- A word of `width` bytes, for any type of words in one-to-one correspondence with the numbers of
that width. -/
theorem word_ok_iff {α : Type} {width : Nat} {toNat : α → Nat} {ofNat : Nat → α}
    (bound : ∀ a, toNat a < 256 ^ width) (ofNat_toNat : ∀ a, ofNat (toNat a) = a)
    (toNat_ofNat : ∀ n < 256 ^ width, toNat (ofNat n) = n) {a : α} {bs rest : Bytes} :
    (ofNat <$> littleEndian width) bs = .ok a rest ↔
      bs = MoveTx.littleEndian width (toNat a) ++ rest := by
  rw [map_ok_iff]
  constructor
  · rintro ⟨n, read, rfl⟩
    obtain ⟨small, rfl⟩ := littleEndian_ok_iff.mp read
    rw [toNat_ofNat n small]
  · rintro rfl
    exact ⟨toNat a, littleEndian_ok_iff.mpr ⟨bound a, rfl⟩, ofNat_toNat a⟩

theorem fixed_ok_iff {n : Nat} {b : FixedBytes n} {bs rest : Bytes} :
    fixed n bs = .ok b rest ↔ bs = b.toBytes ++ rest := by
  unfold fixed
  rw [bind_ok_iff]
  constructor
  · rintro ⟨taken, u, read, h⟩
    obtain ⟨sized, rfl⟩ := take_ok_iff.mp read
    rw [FixedBytes.ofBytes?, dif_pos sized] at h
    obtain ⟨rfl, rfl⟩ := pure_ok_iff.mp h
    rfl
  · rintro rfl
    refine ⟨_, _, take_ok_iff.mpr ⟨b.length_eq, rfl⟩, ?_⟩
    rw [FixedBytes.ofBytes?, dif_pos b.length_eq]
    rfl

theorem bool_ok_iff {v : Bool} {bs rest : Bytes} :
    bool bs = .ok v rest ↔ bs = (if v then 1 else 0) :: rest := by
  unfold bool
  rw [bind_ok_iff]
  constructor
  · rintro ⟨b, u, read, h⟩
    obtain rfl := byte_ok_iff.mp read
    split at h
    · obtain ⟨rfl, rfl⟩ := pure_ok_iff.mp h
      rfl
    · obtain ⟨rfl, rfl⟩ := pure_ok_iff.mp h
      rfl
    · exact (throw_ok_iff.mp h).elim
  · rintro rfl
    exact ⟨_, _, byte_ok_iff.mpr rfl, by cases v <;> rfl⟩

/-! ### Lengths and tags -/

theorem length_ok_iff {n : Nat} {bs rest : Bytes} :
    length bs = .ok n rest ↔ n ≤ maxSequenceLength ∧ bs = Codec.uleb n ++ rest := by
  unfold length
  rw [bind_ok_iff]
  constructor
  · rintro ⟨k, u, read, h⟩
    obtain ⟨_, rfl⟩ := uleb_ok_iff.mp read
    split at h
    · exact (throw_ok_iff.mp h).elim
    · obtain ⟨rfl, rfl⟩ := pure_ok_iff.mp h
      exact ⟨by omega, rfl⟩
  · rintro ⟨short, rfl⟩
    refine ⟨n, rest, uleb_ok_iff.mpr ⟨by unfold maxSequenceLength at short; omega, rfl⟩, ?_⟩
    rw [if_neg (by omega)]
    rfl

theorem variant_ok_iff {n : Nat} {bs rest : Bytes} :
    variant bs = .ok n rest ↔ n < UInt32.size ∧ bs = Codec.uleb n ++ rest := by
  unfold variant
  rw [bind_ok_iff]
  constructor
  · rintro ⟨k, u, read, h⟩
    obtain ⟨_, rfl⟩ := uleb_ok_iff.mp read
    split at h
    · rename_i small
      obtain ⟨rfl, rfl⟩ := pure_ok_iff.mp h
      exact ⟨small, rfl⟩
    · exact (throw_ok_iff.mp h).elim
  · rintro ⟨small, rfl⟩
    refine ⟨n, rest, uleb_ok_iff.mpr ⟨by unfold UInt32.size at small; omega, rfl⟩, ?_⟩
    rw [if_pos small]
    rfl

theorem variant_bind_iff {α : Type} {f : Nat → Reader α} {bs rest : Bytes} {a : α} :
    (variant >>= f) bs = .ok a rest ↔
      ∃ tag u, tag < UInt32.size ∧ bs = Codec.uleb tag ++ u ∧ f tag u = .ok a rest := by
  simp only [bind_ok_iff, variant_ok_iff, and_assoc]

/-! ### Sequences -/

theorem bytes_ok_iff {taken bs rest : Bytes} :
    bytes bs = .ok taken rest ↔ taken.length ≤ maxSequenceLength ∧ bs = Codec.bytes taken ++ rest := by
  unfold bytes
  rw [bind_ok_iff]
  constructor
  · rintro ⟨n, u, read, h⟩
    obtain ⟨short, rfl⟩ := length_ok_iff.mp read
    obtain ⟨rfl, rfl⟩ := take_ok_iff.mp h
    exact ⟨short, by rw [Codec.bytes, List.append_assoc]⟩
  · rintro ⟨short, rfl⟩
    rw [Codec.bytes, List.append_assoc]
    exact ⟨_, _, length_ok_iff.mpr ⟨short, rfl⟩, take_ok_iff.mpr ⟨rfl, rfl⟩⟩

theorem string_ok_iff {s : String} {bs rest : Bytes} :
    string bs = .ok s rest ↔
      (textBytes s).length ≤ maxSequenceLength ∧ bs = Codec.bytes (textBytes s) ++ rest := by
  unfold string
  rw [bind_ok_iff]
  constructor
  · rintro ⟨taken, u, read, h⟩
    cases text : textOfBytes? taken with
    | none =>
      simp only [text] at h
      exact (throw_ok_iff.mp h).elim
    | some t =>
      simp only [text] at h
      obtain ⟨rfl, rfl⟩ := pure_ok_iff.mp h
      obtain rfl := textOfBytes_iff.mp text
      exact bytes_ok_iff.mp read
  · intro written
    refine ⟨_, _, bytes_ok_iff.mpr written, ?_⟩
    simp only [textOfBytes_iff.mpr rfl]
    rfl

section

variable {α : Type} {r : Reader α} {write : α → Bytes} {domain : α → Prop}

theorem times_ok_iff {ε : Type} {r : EStateM ε Bytes α}
    (reads : ∀ bs a rest, r bs = .ok a rest ↔ domain a ∧ bs = write a ++ rest) {n : Nat}
    {as : List α} {bs rest : Bytes} :
    times r n bs = .ok as rest ↔
      as.length = n ∧ (∀ a ∈ as, domain a) ∧ bs = as.flatMap write ++ rest := by
  induction n generalizing as bs with
  | zero =>
    rw [times, pure_ok_iff]
    constructor
    · rintro ⟨rfl, rfl⟩
      exact ⟨rfl, nofun, rfl⟩
    · rintro ⟨empty, -, rfl⟩
      obtain rfl := List.length_eq_zero_iff.mp empty
      exact ⟨rfl, rfl⟩
  | succ n ih =>
    rw [times, bind_ok_iff]
    constructor
    · rintro ⟨a, u, read, h⟩
      obtain ⟨inside, rfl⟩ := (reads _ _ _).mp read
      obtain ⟨others, v, more, h⟩ := bind_ok_iff.mp h
      obtain ⟨rfl, rfl⟩ := pure_ok_iff.mp h
      obtain ⟨rfl, all, rfl⟩ := ih.mp more
      refine ⟨rfl, ?_, by rw [List.flatMap_cons, List.append_assoc]⟩
      exact List.forall_mem_cons.mpr ⟨inside, all⟩
    · rintro ⟨counted, all, rfl⟩
      obtain ⟨a, others, rfl⟩ := List.exists_cons_of_length_eq_add_one counted
      obtain ⟨inside, all⟩ := List.forall_mem_cons.mp all
      rw [List.flatMap_cons, List.append_assoc]
      refine ⟨a, _, (reads _ _ _).mpr ⟨inside, rfl⟩, bind_ok_iff.mpr ⟨others, rest, ?_, rfl⟩⟩
      exact ih.mpr ⟨Nat.succ.inj counted, all, rfl⟩

theorem list_ok_iff (reads : ∀ bs a rest, r bs = .ok a rest ↔ domain a ∧ bs = write a ++ rest)
    {as : List α} {bs rest : Bytes} :
    list r bs = .ok as rest ↔
      (as.length ≤ maxSequenceLength ∧ ∀ a ∈ as, domain a) ∧ bs = Codec.listWith write as ++ rest := by
  unfold list
  rw [bind_ok_iff, Codec.listWith, List.append_assoc]
  constructor
  · rintro ⟨n, u, read, h⟩
    obtain ⟨short, rfl⟩ := length_ok_iff.mp read
    obtain ⟨rfl, all, rfl⟩ := (times_ok_iff reads).mp h
    exact ⟨⟨short, all⟩, rfl⟩
  · rintro ⟨⟨short, all⟩, rfl⟩
    exact ⟨_, _, length_ok_iff.mpr ⟨short, rfl⟩, (times_ok_iff reads).mpr ⟨rfl, all, rfl⟩⟩

theorem list_bind_iff (reads : ∀ bs a rest, r bs = .ok a rest ↔ domain a ∧ bs = write a ++ rest)
    {β : Type} {f : List α → Reader β} {b : β} {bs rest : Bytes} :
    (list r >>= f) bs = .ok b rest ↔
      ∃ as u, (as.length ≤ maxSequenceLength ∧ ∀ a ∈ as, domain a) ∧
        bs = Codec.listWith write as ++ u ∧ f as u = .ok b rest := by
  simp only [bind_ok_iff, list_ok_iff reads, and_assoc]

theorem option_ok_iff (reads : ∀ bs a rest, r bs = .ok a rest ↔ domain a ∧ bs = write a ++ rest)
    {o : Option α} {bs rest : Bytes} :
    option r bs = .ok o rest ↔ (∀ a ∈ o, domain a) ∧ bs = Codec.optionWith write o ++ rest := by
  unfold option
  rw [bind_ok_iff]
  constructor
  · rintro ⟨b, u, read, h⟩
    obtain rfl := byte_ok_iff.mp read
    split at h
    · obtain ⟨rfl, rfl⟩ := pure_ok_iff.mp h
      exact ⟨nofun, rfl⟩
    · obtain ⟨a, read, rfl⟩ := map_ok_iff.mp h
      obtain ⟨inside, rfl⟩ := (reads _ _ _).mp read
      exact ⟨by simpa using inside, rfl⟩
    · exact (throw_ok_iff.mp h).elim
  · rintro ⟨inside, rfl⟩
    cases o with
    | none => exact ⟨0, rest, byte_ok_iff.mpr rfl, rfl⟩
    | some a =>
      refine ⟨1, _, byte_ok_iff.mpr rfl, map_ok_iff.mpr ⟨a, ?_, rfl⟩⟩
      exact (reads _ _ _).mpr ⟨inside a rfl, rfl⟩

/-! ### Written forms in a row -/

/-- A written form that can be read shows where it ends. -/
theorem append_inj (reads : ∀ bs a rest, r bs = .ok a rest ↔ domain a ∧ bs = write a ++ rest)
    {a b : α} {u v : Bytes} (left : domain a) (right : domain b) (same : write a ++ u = write b ++ v) :
    a = b ∧ u = v := by
  have first : r (write a ++ u) = .ok a u := (reads _ _ _).mpr ⟨left, rfl⟩
  have second : r (write a ++ u) = .ok b v := (reads _ _ _).mpr ⟨right, same⟩
  exact EStateM.Result.ok.inj (first.symm.trans second)

/-- So a list of them needs no count, unless some are empty. -/
theorem flatMap_inj (reads : ∀ bs a rest, r bs = .ok a rest ↔ domain a ∧ bs = write a ++ rest)
    (nonempty : ∀ a, write a ≠ []) {as bs : List α} (left : ∀ a ∈ as, domain a)
    (right : ∀ b ∈ bs, domain b) (same : as.flatMap write = bs.flatMap write) : as = bs := by
  induction as generalizing bs with
  | nil =>
    cases bs with
    | nil => rfl
    | cons b bs => simp [nonempty b] at same
  | cons a as ih =>
    cases bs with
    | nil => simp [nonempty a] at same
    | cons b bs =>
      obtain ⟨inside, all⟩ := List.forall_mem_cons.mp left
      obtain ⟨inside', all'⟩ := List.forall_mem_cons.mp right
      rw [List.flatMap_cons, List.flatMap_cons] at same
      obtain ⟨rfl, others⟩ := append_inj reads inside inside' same
      rw [ih all all' others]

end

/-! ### Counts in front

What stands behind its count shows where it ends, since the count does.
-/

theorem bytes_append_inj {bs cs u v : Bytes} (same : Codec.bytes bs ++ u = Codec.bytes cs ++ v) :
    bs = cs ∧ u = v := by
  unfold Codec.bytes at same
  rw [List.append_assoc, List.append_assoc] at same
  obtain ⟨counts, same⟩ := uleb_append_inj same
  exact List.append_inj same counts

theorem listWith_append_inj {α : Type} {write : α → Bytes} {as bs : List α} {u v : Bytes}
    (apart : ∀ a ∈ as, ∀ b u v, write a ++ u = write b ++ v → a = b ∧ u = v)
    (same : Codec.listWith write as ++ u = Codec.listWith write bs ++ v) : as = bs ∧ u = v := by
  unfold Codec.listWith at same
  rw [List.append_assoc, List.append_assoc] at same
  obtain ⟨counts, rests⟩ := uleb_append_inj same
  clear same
  induction as generalizing bs with
  | nil =>
    obtain rfl := List.length_eq_zero_iff.mp counts.symm
    exact ⟨rfl, rests⟩
  | cons a as ih =>
    obtain ⟨b, others, rfl⟩ := List.exists_cons_of_length_eq_add_one counts.symm
    obtain ⟨first, later⟩ := List.forall_mem_cons.mp apart
    rw [List.flatMap_cons, List.flatMap_cons, List.append_assoc, List.append_assoc] at rests
    obtain ⟨rfl, behind⟩ := first b _ _ rests
    obtain ⟨rfl, last⟩ := ih later (Nat.succ.inj counts) behind
    exact ⟨rfl, last⟩

end MoveTx.Reader
