import MoveTx.Module.Table
import MoveTx.Proofs.Object

/-!
# Bodies of tables

A body is its entries in a row, without a count. It is read back as it was written, and read in no other
way. The entry that an index points to is found unless the index is past the last one.
-/

namespace MoveTx
open Step

/-- A module handle as it stands in its table. -/
def ModuleHandle.written (h : ModuleHandle) : Bytes :=
  Codec.uleb h.address.toNat ++ Codec.uleb h.name.toNat

/-- What an index into a pool points to. -/
def poolEntry {α : Type} (kind : TableKind) (pool : List α) (index : Nat) : Except ModuleError α :=
  match pool[index]? with
  | some a => .ok a
  | none => .error (.outOfBounds kind index pool.length)

namespace ModuleReader

section

variable {α : Type} {bs rest : Bytes}

theorem ofReader_ok_iff {r : Reader α} {a : α} : ofReader r bs = .ok a rest ↔ r bs = .ok a rest := by
  unfold ofReader
  cases r bs <;> simp

theorem index_ok_iff {table : TableKind} {i : UInt16} :
    index table bs = .ok i rest ↔ bs = Codec.uleb i.toNat ++ rest := by
  unfold index
  rw [bind_ok_iff]
  constructor
  · rintro ⟨n, u, read, h⟩
    obtain ⟨-, rfl⟩ := Reader.uleb_ok_iff.mp (ofReader_ok_iff.mp read)
    split at h
    · rename_i small
      obtain ⟨rfl, rfl⟩ := pure_ok_iff.mp h
      rw [UInt16.toNat_ofNat_of_lt' small]
    · exact (throw_ok_iff.mp h).elim
  · rintro rfl
    have small : i.toNat < UInt16.size := i.toNat_lt
    have fits : i.toNat < 2 ^ 64 := Nat.lt_trans i.toNat_lt (by decide)
    refine ⟨i.toNat, rest, ofReader_ok_iff.mpr (Reader.uleb_ok_iff.mpr ⟨fits, rfl⟩), ?_⟩
    rw [if_pos small, UInt16.ofNat_toNat]
    rfl

end

/-- The reader takes exactly the written form of an entry off the front of the bytes, one byte at
least. -/
structure ReadsEntry {α : Type} (entry : ModuleReader α) (write : α → Bytes) (domain : α → Prop) :
    Prop where
  ok_iff : ∀ bs a rest, entry bs = .ok a rest ↔ domain a ∧ bs = write a ++ rest
  nonempty : ∀ a, write a ≠ []

theorem reads_string : ReadsEntry (ofReader Reader.string) (encode : String → Bytes) readable where
  ok_iff bs s rest := ofReader_ok_iff.trans (LawfulCodec.decode_iff bs s rest)
  nonempty _ := List.append_ne_nil_of_left_ne_nil (Reader.uleb_ne_nil _) _

theorem reads_address :
    ReadsEntry (ofReader decode) (encode : Address → Bytes) fun _ => True where
  ok_iff bs a rest := ofReader_ok_iff.trans (LawfulCodec.decode_iff bs a rest)
  nonempty a := List.ne_nil_of_length_pos (Nat.lt_of_lt_of_eq (by decide) a.raw.length_eq.symm)

theorem reads_moduleHandle : ReadsEntry moduleHandle ModuleHandle.written fun _ => True where
  ok_iff bs h rest := by
    unfold moduleHandle ModuleHandle.written
    simp only [bind_ok_iff, index_ok_iff, pure_ok_iff]
    rw [true_and, List.append_assoc]
    constructor
    · rintro ⟨address, _, rfl, name, _, rfl, rfl, rfl⟩
      rfl
    · rintro rfl
      exact ⟨h.address, _, rfl, h.name, rest, rfl, rfl, rfl⟩
  nonempty _ := List.append_ne_nil_of_left_ne_nil (Reader.uleb_ne_nil _) _

section

variable {α : Type} {entry : ModuleReader α} {write : α → Bytes} {domain : α → Prop}

/-- Bytes to which `count` entries are enough are read to their end. -/
theorem untilEnd_ok_iff (reads : ReadsEntry entry write domain) {count : Nat} {as : List α}
    {bs rest : Bytes} (enough : bs.length ≤ count) :
    untilEnd entry count bs = .ok as rest ↔
      rest = [] ∧ (∀ a ∈ as, domain a) ∧ bs = as.flatMap write := by
  have ends : ∀ as rest, (pure [] : ModuleReader (List α)) [] = .ok as rest ↔
      rest = [] ∧ (∀ a ∈ as, domain a) ∧ [] = as.flatMap write := by
    intro as rest
    rw [pure_ok_iff]
    constructor
    · rintro ⟨rfl, rfl⟩
      exact ⟨rfl, nofun, rfl⟩
    · rintro ⟨rfl, -, written⟩
      cases as with
      | nil => exact ⟨rfl, rfl⟩
      | cons a others => exact absurd (List.append_eq_nil_iff.mp written.symm).1 (reads.nonempty a)
  induction count generalizing as bs with
  | zero =>
    obtain rfl := List.length_eq_zero_iff.mp (Nat.le_zero.mp enough)
    exact ends as rest
  | succ count ih =>
    rw [untilEnd, get_bind]
    cases bs with
    | nil => exact ends as rest
    | cons b bs =>
      -- An entry takes at least one byte.
      have shorter : ∀ a u, b :: bs = write a ++ u → u.length ≤ count := by
        intro a u written
        have positive := List.length_pos_iff.mpr (reads.nonempty a)
        have lengths := congrArg List.length written
        rw [List.length_append] at lengths
        omega
      simp only [bind_ok_iff]
      constructor
      · rintro ⟨a, u, read, others, v, more, done⟩
        obtain ⟨rfl, rfl⟩ := pure_ok_iff.mp done
        obtain ⟨inside, written⟩ := (reads.ok_iff _ _ _).mp read
        obtain ⟨rfl, all, rfl⟩ := (ih (shorter a u written)).mp more
        exact ⟨rfl, List.forall_mem_cons.mpr ⟨inside, all⟩, written⟩
      · rintro ⟨rfl, all, written⟩
        cases as with
        | nil => cases written
        | cons a others =>
          obtain ⟨inside, all⟩ := List.forall_mem_cons.mp all
          rw [List.flatMap_cons] at written
          refine ⟨a, _, (reads.ok_iff _ _ _).mpr ⟨inside, written⟩, others, [], ?_, rfl⟩
          exact (ih (shorter a _ written)).mpr ⟨rfl, all, rfl⟩

/-- A body is the written form of the entries that are read from it. -/
theorem readTable_ok_iff (reads : ReadsEntry entry write domain) {as : List α} {body : Bytes} :
    readTable entry body = .ok as ↔ (∀ a ∈ as, domain a) ∧ body = as.flatMap write := by
  have read : untilEnd entry body.length body = .ok as [] ↔
      ([] : Bytes) = [] ∧ (∀ a ∈ as, domain a) ∧ body = as.flatMap write :=
    untilEnd_ok_iff reads (Nat.le_refl body.length)
  unfold readTable EStateM.run
  cases run : untilEnd entry body.length body with
  | ok bs rest =>
    obtain ⟨rfl, -⟩ := (untilEnd_ok_iff reads (Nat.le_refl _)).mp run
    rw [run] at read
    simpa using read
  | error e rest =>
    rw [run] at read
    simpa using read

end

end ModuleReader

end MoveTx
