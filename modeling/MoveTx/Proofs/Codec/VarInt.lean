import Mathlib.Data.List.Induction
import Mathlib.Tactic.Ring
import MoveTx.Codec.Basic
import MoveTx.Proofs.Step

/-!
# Variable-length integers

A reader of an integer goes on with a word and the place of the next group in it. The word is the number of
the groups before, so that no bit of them is shifted out of it. Therefore an integer is read exactly where
it was written, and the bytes show which of three faults there is where none was.
-/

namespace MoveTx.Reader
open Step

/-! ### Written forms -/

theorem uleb_small {n : Nat} (small : n < 128) : Codec.uleb n = [UInt8.ofNat n] := by
  rw [Codec.uleb, if_pos small]

theorem uleb_large {n : Nat} (large : ¬ n < 128) :
    Codec.uleb n = UInt8.ofNat (n % 128 + 128) :: Codec.uleb (n / 128) := by
  rw [Codec.uleb, if_neg large]

theorem uleb_ne_nil (n : Nat) : Codec.uleb n ≠ [] := by
  by_cases small : n < 128
  · rw [uleb_small small]
    exact List.cons_ne_nil _ _
  · rw [uleb_large small]
    exact List.cons_ne_nil _ _

/-- The number of groups of seven bits, the least significant first. -/
def ofGroups : Bytes → Nat
  | [] => 0
  | b :: bs => b.toNat % 128 + 128 * ofGroups bs

theorem ofGroups_concat (bs : Bytes) (b : UInt8) :
    ofGroups (bs ++ [b]) = ofGroups bs + 128 ^ bs.length * (b.toNat % 128) := by
  induction bs with
  | nil => simp [ofGroups]
  | cons c bs ih =>
    rw [List.cons_append, ofGroups, ofGroups, ih, List.length_cons]
    ring

theorem ofGroups_lt (bs : Bytes) : ofGroups bs < 128 ^ bs.length := by
  induction bs with
  | nil => simp [ofGroups]
  | cons b bs ih =>
    rw [ofGroups, List.length_cons, Nat.pow_succ]
    omega

/-- The bytes are one integer in as few groups as it takes: all but the last have their top bit set, and the
last is not zero unless it is the only one. -/
structure Minimal (more : Bytes) (last : UInt8) : Prop where
  continues : ∀ b ∈ more, 128 ≤ b.toNat
  ends : last.toNat < 128
  nonzero : more ≠ [] → last.toNat ≠ 0

theorem Minimal.tail {b last : UInt8} {more : Bytes} (minimal : Minimal (b :: more) last) :
    Minimal more last :=
  ⟨(List.forall_mem_cons.mp minimal.continues).2, minimal.ends, fun _ => minimal.nonzero (List.cons_ne_nil _ _)⟩

theorem ofGroups_pos {last : UInt8} (ends : last.toNat < 128) (nonzero : last.toNat ≠ 0) (more : Bytes) :
    0 < ofGroups (more ++ [last]) := by
  have positive : 0 < 128 ^ more.length * (last.toNat % 128) :=
    Nat.mul_pos (Nat.pow_pos (by decide)) (by omega)
  rw [ofGroups_concat]
  omega

/-- Such bytes are the written form of their number. -/
theorem Minimal.uleb_eq {more : Bytes} {last : UInt8} (minimal : Minimal more last) :
    Codec.uleb (ofGroups (more ++ [last])) = more ++ [last] := by
  induction more with
  | nil =>
    have ends := minimal.ends
    have value : ofGroups [last] = last.toNat := by
      rw [ofGroups, ofGroups]
      omega
    rw [List.nil_append, value, uleb_small ends, UInt8.ofNat_toNat]
  | cons b more ih =>
    have first := minimal.continues b List.mem_cons_self
    have byte := b.toNat_lt
    have positive := ofGroups_pos minimal.ends (minimal.nonzero (List.cons_ne_nil _ _)) more
    have whole : ofGroups (b :: more ++ [last]) = b.toNat % 128 + 128 * ofGroups (more ++ [last]) := rfl
    have low : (b.toNat % 128 + 128 * ofGroups (more ++ [last])) % 128 + 128 = b.toNat := by omega
    have high : (b.toNat % 128 + 128 * ofGroups (more ++ [last])) / 128 = ofGroups (more ++ [last]) := by
      omega
    rw [whole, uleb_large (by omega), low, high, ih minimal.tail, UInt8.ofNat_toNat]
    rfl

/-- All groups but the tenth hold seven bits, and the tenth holds one. -/
theorem Minimal.lt_iff {more : Bytes} {last : UInt8} (minimal : Minimal more last) :
    ofGroups (more ++ [last]) < 2 ^ 64 ↔ more.length ≤ 9 ∧ (more.length = 9 → last.toNat ≤ 1) := by
  have split := ofGroups_concat more last
  have ends := minimal.ends
  constructor
  · intro small
    have few : more.length ≤ 9 := by
      by_contra many
      have nonzero := minimal.nonzero (by rintro rfl; exact many (Nat.zero_le 9))
      have power : 128 ^ 10 ≤ 128 ^ more.length := Nat.pow_le_pow_right (by decide) (by omega)
      have grown : 128 ^ more.length * 1 ≤ 128 ^ more.length * (last.toNat % 128) :=
        Nat.mul_le_mul_left _ (by omega)
      omega
    refine ⟨few, fun nine => ?_⟩
    rw [nine] at split
    omega
  · rintro ⟨few, fits⟩
    have below := ofGroups_lt more
    rcases Nat.lt_or_eq_of_le few with fewer | nine
    · have power : 128 ^ (more ++ [last]).length ≤ 128 ^ 9 := by
        rw [List.length_append, List.length_singleton]
        exact Nat.pow_le_pow_right (by decide) fewer
      exact (ofGroups_lt _).trans (power.trans_lt (by decide))
    · have one := fits nine
      rw [nine] at split below
      omega

theorem exists_minimal (n : Nat) :
    ∃ more last, Minimal more last ∧ Codec.uleb n = more ++ [last] ∧ ofGroups (more ++ [last]) = n := by
  induction n using Nat.strongRecOn with
  | ind n ih =>
    by_cases small : n < 128
    · have value : (UInt8.ofNat n).toNat = n := by
        rw [UInt8.toNat_ofNat']
        omega
      refine ⟨[], UInt8.ofNat n, ⟨nofun, by omega, fun none => (none rfl).elim⟩, uleb_small small, ?_⟩
      rw [List.nil_append, ofGroups, ofGroups]
      omega
    · obtain ⟨more, last, minimal, written, value⟩ := ih (n / 128) (by omega)
      have byte : (UInt8.ofNat (n % 128 + 128)).toNat = n % 128 + 128 := by
        rw [UInt8.toNat_ofNat']
        omega
      refine ⟨UInt8.ofNat (n % 128 + 128) :: more, last, ⟨?_, minimal.ends, fun _ => ?_⟩, ?_, ?_⟩
      · exact List.forall_mem_cons.mpr ⟨by omega, minimal.continues⟩
      · by_cases some : more = []
        · rw [some, List.nil_append, ofGroups, ofGroups] at value
          omega
        · exact minimal.nonzero some
      · rw [uleb_large small, written]
        rfl
      · rw [List.cons_append, ofGroups, value]
        omega

theorem Minimal.append_inj {more more' u v : Bytes} {last last' : UInt8} (first : Minimal more last)
    (second : Minimal more' last') (same : more ++ last :: u = more' ++ last' :: v) :
    more ++ [last] = more' ++ [last'] ∧ u = v := by
  induction more generalizing more' with
  | nil =>
    cases more' with
    | nil =>
      obtain ⟨rfl, rfl⟩ := List.cons.inj same
      exact ⟨rfl, rfl⟩
    | cons c more' =>
      have large := second.continues c List.mem_cons_self
      have ends := first.ends
      rw [(List.cons.inj same).1] at ends
      omega
  | cons b more ih =>
    cases more' with
    | nil =>
      have large := first.continues b List.mem_cons_self
      have ends := second.ends
      rw [← (List.cons.inj same).1] at ends
      omega
    | cons c more' =>
      obtain ⟨rfl, others⟩ := List.cons.inj same
      obtain ⟨front, behind⟩ := ih first.tail second.tail others
      exact ⟨congrArg (b :: ·) front, behind⟩

/-- An integer shows where it ends however large it is, also one that no reader accepts. -/
theorem uleb_append_inj {m n : Nat} {u v : Bytes} (same : Codec.uleb m ++ u = Codec.uleb n ++ v) :
    m = n ∧ u = v := by
  obtain ⟨more, last, first, written, rfl⟩ := exists_minimal m
  obtain ⟨more', last', second, written', rfl⟩ := exists_minimal n
  rw [written, written', List.append_assoc, List.append_assoc] at same
  obtain ⟨front, behind⟩ := first.append_inj second same
  exact ⟨congrArg ofGroups front, behind⟩

/-! ### Groups in a word -/

variable {g g' : Groups} {more rest : Bytes} {b : UInt8}

/-- The word is the number of the groups that have been read, and there is room for another one. -/
structure Groups.Holds (g : Groups) (more : Bytes) : Prop where
  few : more.length ≤ 9
  continues : ∀ b ∈ more, 128 ≤ b.toNat
  place : g.shift = 7 * more.length
  value : g.word.toNat = ofGroups more

theorem toNat_digit (b : UInt8) : (b &&& 0x7f).toUInt64.toNat = b.toNat % 128 := by
  rw [UInt8.toNat_toUInt64, UInt8.toNat_and]
  exact Nat.and_two_pow_sub_one_eq_mod b.toNat 7

theorem continues_iff {b : UInt8} : b &&& 0x80 = 0 ↔ b.toNat < 128 := by
  have all : ∀ n < 256, UInt8.ofNat n &&& 0x80 = 0 ↔ n < 128 := by decide +kernel
  have known := all b.toNat b.toNat_lt
  rwa [UInt8.ofNat_toNat] at known

/-- No bit of a group is shifted out of the word: the tenth group, for which only one bit is left, holds no
more than that. -/
theorem Groups.Holds.toNat_word (holds : g.Holds more)
    (fits : more.length = 9 → b.toNat % 128 ≤ 1) :
    (g.word ||| (b &&& 0x7f).toUInt64 <<< UInt64.ofNat g.shift).toNat = ofGroups (more ++ [b]) := by
  have few := holds.few
  have power : 2 ^ g.shift = 128 ^ more.length := by
    rw [holds.place, Nat.pow_mul]
  have below : g.word.toNat < 2 ^ g.shift := by
    rw [holds.value, power]
    exact ofGroups_lt more
  have place : (UInt64.ofNat g.shift).toNat % 64 = g.shift := by
    have small := holds.place
    rw [UInt64.toNat_ofNat']
    omega
  have inside : 2 ^ g.shift * (b.toNat % 128) < 2 ^ 64 := by
    rcases Nat.lt_or_eq_of_le few with fewer | nine
    · have bound : 2 ^ g.shift ≤ 2 ^ 56 := Nat.pow_le_pow_right (by decide) (by have := holds.place; omega)
      have digit : b.toNat % 128 < 128 := Nat.mod_lt _ (by decide)
      calc 2 ^ g.shift * (b.toNat % 128) ≤ 2 ^ 56 * 127 := Nat.mul_le_mul bound (by omega)
        _ < 2 ^ 64 := by decide
    · rw [holds.place, nine]
      have one := fits nine
      omega
  -- The word is below the place of the group, so that putting the group in adds it.
  rw [UInt64.toNat_or, UInt64.toNat_shiftLeft, place, toNat_digit, Nat.shiftLeft_eq, Nat.mul_comm,
    Nat.mod_eq_of_lt inside, Nat.or_comm, ← Nat.two_pow_add_eq_or_of_lt below, holds.value, power,
    ofGroups_concat, Nat.add_comm]

/-- What a byte does to the groups before it. -/
theorem Groups.Holds.step_eq (holds : g.Holds more) (b : UInt8) :
    g.step b =
      if more.length = 9 ∧ 1 < b.toNat % 128 then .error (.varIntOverflow 64)
      else if b.toNat < 128 then
        if more ≠ [] ∧ b.toNat = 0 then .error .nonMinimalLength
        else .ok (.inl (UInt64.ofNat (ofGroups (more ++ [b]))))
      else if more.length = 9 then .error .unterminatedVarInt
      else .ok (.inr ⟨UInt64.ofNat (ofGroups (more ++ [b])), 7 * (more.length + 1)⟩) := by
  have few := holds.few
  have place := holds.place
  have large : 1 < (b &&& 0x7f).toUInt64 ↔ 1 < b.toNat % 128 := by
    rw [UInt64.lt_iff_toNat_lt, toNat_digit]
    rfl
  have zero : (b &&& 0x7f).toUInt64 = 0 ↔ b.toNat % 128 = 0 := by
    rw [← UInt64.toNat_inj, toNat_digit]
    rfl
  unfold step
  by_cases excess : more.length = 9 ∧ 1 < b.toNat % 128
  · rw [if_pos excess, if_pos ⟨by omega, large.mpr excess.2⟩]
  have word : g.word ||| (b &&& 0x7f).toUInt64 <<< UInt64.ofNat g.shift =
      UInt64.ofNat (ofGroups (more ++ [b])) := by
    rw [← holds.toNat_word (by omega), UInt64.ofNat_toNat]
  rw [if_neg excess, if_neg (fun both => excess ⟨by omega, large.mp both.2⟩), word]
  by_cases ends : b.toNat < 128
  · have first : 0 < g.shift ∧ (b &&& 0x7f).toUInt64 = 0 ↔ more ≠ [] ∧ b.toNat = 0 := by
      rw [zero, place, ← List.length_pos_iff]
      omega
    simp only [continues_iff.mpr ends, if_true, if_pos ends, first]
  · have full : 63 < 7 * (more.length + 1) ↔ more.length = 9 := by omega
    have next : g.shift + 7 = 7 * (more.length + 1) := by omega
    simp only [mt continues_iff.mp ends, if_false, if_neg ends, next, full]

theorem Groups.holds_start : Groups.start.Holds [] :=
  ⟨Nat.zero_le 9, nofun, rfl, rfl⟩

theorem Groups.Holds.ofGroups_lt (holds : g.Holds more)
    (fits : more.length = 9 → b.toNat % 128 ≤ 1) : ofGroups (more ++ [b]) < 2 ^ 64 := by
  rw [← holds.toNat_word fits]
  exact UInt64.toNat_lt _

theorem Groups.Holds.next (holds : g.Holds more) (run : g.step b = .ok (.inr g')) :
    g'.Holds (more ++ [b]) := by
  have few := holds.few
  rw [holds.step_eq] at run
  split at run
  · cases run
  split at run
  · split at run <;> cases run
  rename_i continued
  split at run
  · cases run
  rename_i room
  obtain rfl := Sum.inr.inj (Except.ok.inj run)
  constructor
  · rw [List.length_append, List.length_singleton]
    omega
  · exact List.forall_mem_append.mpr ⟨holds.continues, by simpa using continued⟩
  · rw [List.length_append, List.length_singleton]
  · exact UInt64.toNat_ofNat_of_lt' (holds.ofGroups_lt fun nine => absurd nine room)

/-- A byte is the last one when it is that of an integer that fits into the word. -/
theorem Groups.Holds.done_iff {n : UInt64} (holds : g.Holds more) :
    g.step b = .ok (.inl n) ↔
      Minimal more b ∧ (more.length = 9 → b.toNat ≤ 1) ∧ n.toNat = ofGroups (more ++ [b]) := by
  rw [holds.step_eq]
  constructor
  · intro run
    split at run
    · cases run
    rename_i fits
    split at run
    · rename_i ends
      split at run
      · cases run
      rename_i nonzero
      obtain rfl := Sum.inl.inj (Except.ok.inj run)
      refine ⟨⟨holds.continues, ends, fun some zero => nonzero ⟨some, zero⟩⟩, by omega, ?_⟩
      exact UInt64.toNat_ofNat_of_lt' (holds.ofGroups_lt (by omega))
    · split at run <;> cases run
  · rintro ⟨minimal, fits, value⟩
    have ends := minimal.ends
    rw [if_neg (by omega), if_pos ends, if_neg (fun both => minimal.nonzero both.1 both.2), ← value,
      UInt64.ofNat_toNat]

/-! ### Reading byte by byte -/

/-- The groups that reading can have come to after the bytes. -/
inductive Groups.Reads : Bytes → Groups → Prop
  | start : Reads [] .start
  | more {bs : Bytes} {b : UInt8} {g g' : Groups} (before : Reads bs g)
      (run : g.step b = .ok (.inr g')) : Reads (bs ++ [b]) g'

theorem Groups.Reads.holds (reads : Reads more g) : g.Holds more := by
  induction reads with
  | start => exact holds_start
  | more _ run ih => exact ih.next run

theorem Groups.exists_reads (few : more.length ≤ 9) (continues : ∀ b ∈ more, 128 ≤ b.toNat) :
    ∃ g, Reads more g := by
  induction more using List.reverseRecOn with
  | nil => exact ⟨.start, .start⟩
  | append_singleton more b ih =>
    obtain ⟨before, here⟩ := List.forall_mem_append.mp continues
    rw [List.length_append, List.length_singleton] at few
    obtain ⟨g, reads⟩ := ih (by omega) before
    have large : 128 ≤ b.toNat := here b (List.mem_singleton_self b)
    have run := reads.holds.step_eq b
    rw [if_neg (by omega), if_neg (by omega), if_neg (by omega)] at run
    exact ⟨_, .more reads run⟩

/-- Reading goes on from the groups it has come to. -/
theorem Groups.Reads.ulebFrom_append (reads : Reads more g) (rest : Bytes) :
    ulebFrom .start (more ++ rest) = ulebFrom g rest := by
  induction reads generalizing rest with
  | start => rfl
  | more _ run ih =>
    rw [List.append_assoc, ih, List.singleton_append, ulebFrom, run]

/-- Reading comes to the end of its input, or to a byte that it stops at. -/
theorem Groups.Reads.stops {done : Bytes} (reads : Reads done g) (bs : Bytes) :
    (∃ g', Reads (done ++ bs) g') ∨
      ∃ more g' b rest, done ++ bs = more ++ b :: rest ∧ Reads more g' ∧
        ∀ next, g'.step b ≠ .ok (.inr next) := by
  induction bs generalizing done g with
  | nil => exact Or.inl ⟨g, by rwa [List.append_nil]⟩
  | cons b bs ih =>
    by_cases goes : ∃ next, g.step b = .ok (.inr next)
    · obtain ⟨next, run⟩ := goes
      rw [List.append_cons]
      exact ih (.more reads run)
    · exact Or.inr ⟨done, g, b, bs, rfl, reads, not_exists.mp goes⟩

/-! ### What is read -/

theorem Groups.Reads.uleb_of_done {n : UInt64} (reads : Reads more g)
    (done : g.step b = .ok (.inl n)) : uleb (more ++ b :: rest) = .ok n.toNat rest := by
  refine map_of_ok ?_
  rw [reads.ulebFrom_append, ulebFrom, done]

theorem Groups.Reads.uleb_of_error {e : CodecError} (reads : Reads more g)
    (failed : g.step b = .error e) : uleb (more ++ b :: rest) = .error e rest := by
  refine map_of_error ?_
  rw [reads.ulebFrom_append, ulebFrom, failed]

theorem Groups.Reads.uleb_unterminated {bs : Bytes} (reads : Reads bs g) :
    uleb bs = .error .unterminatedVarInt [] := by
  refine map_of_error ?_
  have run := reads.ulebFrom_append []
  rwa [List.append_nil] at run

/-- An integer is read, or the input ends within it, or a byte is refused. -/
theorem uleb_cases (bs : Bytes) :
    (∃ more g b rest n, bs = more ++ b :: rest ∧ Groups.Reads more g ∧ g.step b = .ok (.inl n)) ∨
      (∃ g, Groups.Reads bs g) ∨
      ∃ more g b rest e, bs = more ++ b :: rest ∧ Groups.Reads more g ∧ g.step b = .error e := by
  rcases Groups.Reads.start.stops bs with ended | ⟨more, g, b, rest, split, reads, stops⟩
  · exact Or.inr (Or.inl ended)
  · rw [List.nil_append] at split
    cases run : g.step b with
    | error e => exact Or.inr (Or.inr ⟨more, g, b, rest, e, split, reads, run⟩)
    | ok result =>
      cases result with
      | inl n => exact Or.inl ⟨more, g, b, rest, n, split, reads, run⟩
      | inr next => exact (stops next run).elim

theorem uleb_ok_iff {n : Nat} {bs : Bytes} :
    uleb bs = .ok n rest ↔ n < 2 ^ 64 ∧ bs = Codec.uleb n ++ rest := by
  constructor
  · intro read
    rcases uleb_cases bs with ⟨more, g, b, left, word, rfl, reads, done⟩ | ⟨g, reads⟩ |
      ⟨more, g, b, left, e, rfl, reads, failed⟩
    · rw [reads.uleb_of_done done] at read
      obtain ⟨rfl, rfl⟩ := EStateM.Result.ok.inj read
      obtain ⟨minimal, -, value⟩ := reads.holds.done_iff.mp done
      rw [value, minimal.uleb_eq, List.append_assoc]
      exact ⟨value ▸ word.toNat_lt, rfl⟩
    · rw [reads.uleb_unterminated] at read
      cases read
    · rw [reads.uleb_of_error failed] at read
      cases read
  · rintro ⟨small, rfl⟩
    obtain ⟨more, last, minimal, written, rfl⟩ := exists_minimal n
    obtain ⟨few, fits⟩ := minimal.lt_iff.mp small
    obtain ⟨g, reads⟩ := Groups.exists_reads few minimal.continues
    have value : (UInt64.ofNat (ofGroups (more ++ [last]))).toNat = ofGroups (more ++ [last]) :=
      UInt64.toNat_ofNat_of_lt' small
    rw [written, List.append_assoc, List.singleton_append,
      reads.uleb_of_done (reads.holds.done_iff.mpr ⟨minimal, fits, value⟩), value]

/-! ### What is refused -/

theorem uleb_error_iff {e : CodecError} {bs : Bytes} :
    uleb bs = .error e rest ↔
      (e = .unterminatedVarInt ∧ rest = [] ∧ ∃ g, Groups.Reads bs g) ∨
        ∃ more g b, bs = more ++ b :: rest ∧ Groups.Reads more g ∧ g.step b = .error e := by
  constructor
  · intro refused
    rcases uleb_cases bs with ⟨more, g, b, left, word, rfl, reads, done⟩ | ⟨g, reads⟩ |
      ⟨more, g, b, left, e', rfl, reads, failed⟩
    · rw [reads.uleb_of_done done] at refused
      cases refused
    · rw [reads.uleb_unterminated] at refused
      obtain ⟨rfl, rfl⟩ := EStateM.Result.error.inj refused
      exact Or.inl ⟨rfl, rfl, g, reads⟩
    · rw [reads.uleb_of_error failed] at refused
      obtain ⟨rfl, rfl⟩ := EStateM.Result.error.inj refused
      exact Or.inr ⟨more, g, b, rfl, reads, failed⟩
  · rintro (⟨rfl, rfl, g, reads⟩ | ⟨more, g, b, rfl, reads, failed⟩)
    · exact reads.uleb_unterminated
    · exact reads.uleb_of_error failed

theorem Groups.Holds.nonMinimal_iff (holds : g.Holds more) :
    g.step b = .error .nonMinimalLength ↔ more ≠ [] ∧ b.toNat = 0 := by
  rw [holds.step_eq]
  constructor
  · intro failed
    split_ifs at failed with _ _ zero
    · cases failed
    · exact zero
    · cases failed
  · rintro ⟨some, zero⟩
    rw [if_neg (by omega), if_pos (by omega), if_pos ⟨some, zero⟩]

theorem Groups.Holds.overflow_iff (holds : g.Holds more) :
    g.step b = .error (.varIntOverflow 64) ↔ more.length = 9 ∧ 1 < b.toNat % 128 := by
  rw [holds.step_eq]
  constructor
  · intro failed
    split_ifs at failed with excess
    · exact excess
    · cases failed
    · cases failed
  · intro excess
    rw [if_pos excess]

theorem Groups.Holds.error_cases {e : CodecError} (holds : g.Holds more)
    (failed : g.step b = .error e) :
    e = .nonMinimalLength ∨ e = .varIntOverflow 64 ∨ e = .unterminatedVarInt := by
  rw [holds.step_eq] at failed
  split_ifs at failed <;> obtain rfl := Except.error.inj failed <;> simp

/-- The first byte whose top bit is not set comes second to tenth, and is zero. -/
def EndsInZero (bs : Bytes) : Prop :=
  ∃ more rest, bs = more ++ 0 :: rest ∧ 1 ≤ more.length ∧ more.length ≤ 9 ∧ ∀ b ∈ more, 128 ≤ b.toNat

/-- Behind nine bytes whose top bit is set comes one whose other bits are more than 1. -/
def Overflows (bs : Bytes) : Prop :=
  ∃ more last rest, bs = more ++ last :: rest ∧ more.length = 9 ∧ (∀ b ∈ more, 128 ≤ b.toNat) ∧
    1 < last.toNat % 128

theorem uleb_nonMinimal_iff {bs : Bytes} :
    (∃ rest, uleb bs = .error .nonMinimalLength rest) ↔ EndsInZero bs := by
  simp only [uleb_error_iff]
  constructor
  · rintro ⟨rest, ⟨other, -⟩ | ⟨more, g, b, rfl, reads, failed⟩⟩
    · cases other
    · obtain ⟨some, zero⟩ := reads.holds.nonMinimal_iff.mp failed
      obtain rfl : b = 0 := UInt8.toNat_inj.mp zero
      exact ⟨more, rest, rfl, List.length_pos_iff.mpr some, reads.holds.few, reads.holds.continues⟩
  · rintro ⟨more, rest, rfl, some, few, continues⟩
    obtain ⟨g, reads⟩ := Groups.exists_reads few continues
    exact ⟨rest, Or.inr ⟨more, g, 0, rfl, reads,
      reads.holds.nonMinimal_iff.mpr ⟨List.length_pos_iff.mp some, rfl⟩⟩⟩

theorem uleb_overflow_iff {bs : Bytes} :
    (∃ rest, uleb bs = .error (.varIntOverflow 64) rest) ↔ Overflows bs := by
  simp only [uleb_error_iff]
  constructor
  · rintro ⟨rest, ⟨other, -⟩ | ⟨more, g, b, rfl, reads, failed⟩⟩
    · cases other
    · obtain ⟨nine, excess⟩ := reads.holds.overflow_iff.mp failed
      exact ⟨more, b, rest, rfl, nine, reads.holds.continues, excess⟩
  · rintro ⟨more, last, rest, rfl, nine, continues, excess⟩
    obtain ⟨g, reads⟩ := Groups.exists_reads nine.le continues
    exact ⟨rest, Or.inr ⟨more, g, last, rfl, reads, reads.holds.overflow_iff.mpr ⟨nine, excess⟩⟩⟩

theorem uleb_error_cases {e : CodecError} {bs : Bytes} (refused : uleb bs = .error e rest) :
    e = .nonMinimalLength ∨ e = .varIntOverflow 64 ∨ e = .unterminatedVarInt := by
  rcases uleb_error_iff.mp refused with ⟨rfl, -⟩ | ⟨more, g, b, -, reads, failed⟩
  · exact Or.inr (Or.inr rfl)
  · exact reads.holds.error_cases failed

/-- An integer below `2 ^ 64` is read exactly where it was written, in front of anything. What cannot be read
ends in a group of zeros, or has a tenth group that does not fit, or does not end within ten bytes. Wherever
reading has come to, the next group has its place within the word, and the word is the number of all groups
before, so that none of their bits is lost. -/
theorem uleb_exact :
    (∀ bs n rest, uleb bs = .ok n rest ↔ n < 2 ^ 64 ∧ bs = Codec.uleb n ++ rest) ∧
      (∀ bs, (∃ rest, uleb bs = .error .nonMinimalLength rest) ↔ EndsInZero bs) ∧
      (∀ bs, (∃ rest, uleb bs = .error (.varIntOverflow 64) rest) ↔ Overflows bs) ∧
      (∀ bs, (∃ rest, uleb bs = .error .unterminatedVarInt rest) ↔
        (¬ ∃ n rest, n < 2 ^ 64 ∧ bs = Codec.uleb n ++ rest) ∧ ¬ EndsInZero bs ∧ ¬ Overflows bs) ∧
      ∀ more g, Groups.Reads more g → (∀ rest, ulebFrom .start (more ++ rest) = ulebFrom g rest) ∧
        g.shift < 64 ∧ g.word.toNat = ofGroups more ∧
        ∀ last n, g.step last = .ok (.inl n) → n.toNat = ofGroups (more ++ [last]) := by
  refine ⟨fun bs n rest => uleb_ok_iff, fun bs => uleb_nonMinimal_iff, fun bs => uleb_overflow_iff,
    fun bs => ?_, fun more g reads => ?_⟩
  · rw [← uleb_nonMinimal_iff, ← uleb_overflow_iff]
    simp only [← uleb_ok_iff]
    cases run : uleb bs with
    | ok n rest => simp
    | error e rest =>
      rcases uleb_error_cases run with rfl | rfl | rfl <;> simp
  · have holds := reads.holds
    have few := holds.few
    have place := holds.place
    exact ⟨reads.ulebFrom_append, by omega, holds.value, fun last n done => (holds.done_iff.mp done).2.2⟩

/-- The greatest integer takes up ten groups, of which the last is 1. It is refused with any other one. -/
theorem greatest_exact :
    uleb (List.replicate 9 0xff ++ [1, 7]) = .ok (2 ^ 64 - 1) [7] ∧
      (∃ rest, uleb (List.replicate 9 0xff ++ [0]) = .error .nonMinimalLength rest) ∧
      (∃ rest, uleb (List.replicate 9 0xff ++ [2]) = .error (.varIntOverflow 64) rest) ∧
      ∃ g, Groups.Reads (List.replicate 9 0xff) g ∧ g.shift < 64 ∧ g.word.toNat = 2 ^ 63 - 1 := by
  obtain ⟨read, zero, excess, -, word⟩ := uleb_exact
  have written : List.replicate 9 0xff ++ [1, 7] = Codec.uleb (2 ^ 64 - 1) ++ [7] := by cbv
  have continues : ∀ b ∈ List.replicate 9 (0xff : UInt8), 128 ≤ b.toNat := by
    intro b inside
    rw [List.eq_of_mem_replicate inside]
    decide
  obtain ⟨g, reads⟩ := Groups.exists_reads (by decide) continues
  obtain ⟨-, place, value, -⟩ := word _ g reads
  exact ⟨(read _ _ _).mpr ⟨by decide, written⟩, (zero _).mpr ⟨_, [], rfl, by decide, by decide, continues⟩,
    (excess _).mpr ⟨_, 2, [], rfl, by decide, continues, by decide⟩, g, reads, place, value⟩

end MoveTx.Reader
