import MoveTx.Proofs.ByteOrder
import MoveTx.Proofs.Client.Gas

/-!
# The fewest coins

Of the coins in descending order an initial part is worth at least as much as any other coins of the same
number. So whenever coins can cover a budget together, the largest ones do, and no fewer coins would.
-/

namespace MoveTx.Gas

variable {coins other : List Coin} {c d e : Coin}

/-! ### Descending order -/

/-- Whether `c` may be taken before `d`: the greater balance first, and of equal ones the smaller id. -/
def Descends (c d : Coin) : Prop :=
  d.balance < c.balance ∨ c.balance = d.balance ∧ (c.id = d.id ∨ c.id.before d.id = true)

theorem descends_of_precedes (precedes : precedes c d = true) : Descends c d := by
  simp only [Gas.precedes, Bool.or_eq_true, Bool.and_eq_true, decide_eq_true_iff, beq_iff_eq]
    at precedes
  exact precedes.imp_right fun ⟨same, before⟩ => ⟨same, Or.inr before⟩

theorem descends_of_not_precedes (behind : ¬ precedes d c = true) : Descends c d := by
  simp only [Gas.precedes, Bool.or_eq_true, Bool.and_eq_true, decide_eq_true_iff, beq_iff_eq, not_or,
    not_and] at behind
  obtain ⟨notLess, tied⟩ := behind
  rcases UInt64.lt_or_eq_of_le (UInt64.not_lt.mp notLess) with less | same
  · exact Or.inl less
  · refine Or.inr ⟨same.symm, ?_⟩
    rcases Address.before_or (a := c.id) (b := d.id) with equal | before | before
    · exact Or.inl equal
    · exact Or.inr before
    · exact absurd before (tied same)

theorem Descends.trans (first : Descends c d) (second : Descends d e) : Descends c e := by
  rcases first with more | ⟨same, first⟩
  · rcases second with more' | ⟨same, -⟩
    · exact Or.inl (UInt64.lt_trans more' more)
    · exact Or.inl (same ▸ more)
  · rcases second with more | ⟨same', second⟩
    · exact Or.inl (same ▸ more)
    · refine Or.inr ⟨same.trans same', ?_⟩
      rcases first with equal | before
      · exact equal ▸ second
      · rcases second with equal | before'
        · exact Or.inr (equal ▸ before)
        · exact Or.inr (Address.before_trans before before')

theorem Descends.balance_le (descends : Descends c d) : d.balance.toNat ≤ c.balance.toNat := by
  rcases descends with more | ⟨same, -⟩
  · exact Nat.le_of_lt (UInt64.lt_iff_toNat_lt.mp more)
  · exact Nat.le_of_eq (congrArg UInt64.toNat same.symm)

theorem largestFirst_descends (coins : List Coin) : (largestFirst coins).Pairwise Descends := by
  rw [largestFirst_eq]
  exact pairwise_insertionSort Descends (fun _ _ => descends_of_not_precedes)
    (fun _ _ behind => descends_of_precedes (not_not.mp behind)) (fun _ _ _ => Descends.trans) coins

/-! ### Balances -/

theorem totalBalance_append (l m : List Coin) :
    totalBalance (l ++ m) = totalBalance l + totalBalance m := by
  induction l with
  | nil => rw [List.nil_append, totalBalance, Nat.zero_add]
  | cons c rest ih => rw [List.cons_append, totalBalance, ih, totalBalance, Nat.add_assoc]

theorem totalBalance_perm {l m : List Coin} (perm : l.Perm m) : totalBalance l = totalBalance m := by
  induction perm with
  | nil => rfl
  | cons c _ ih => rw [totalBalance, totalBalance, ih]
  | swap c d l => exact Nat.add_left_comm _ _ _
  | trans _ _ first second => exact first.trans second

theorem totalBalance_le (coins : List Coin) :
    totalBalance coins ≤ coins.length * (2 ^ 64 - 1) := by
  induction coins with
  | nil => exact Nat.zero_le _
  | cons c rest ih =>
    have small := c.balance.toNat_lt
    rw [totalBalance, List.length_cons]
    omega

theorem totalBalance_take_mono (coins : List Coin) {n m : Nat} (le : n ≤ m) :
    totalBalance (coins.take n) ≤ totalBalance (coins.take m) := by
  obtain ⟨k, rfl⟩ := Nat.exists_eq_add_of_le le
  rw [List.take_add, totalBalance_append]
  exact Nat.le_add_right _ _

/-! ### The largest coins -/

/-- Leaving out the first of coins in descending order never helps. -/
theorem totalBalance_take_succ (sorted : (c :: coins).Pairwise Descends) (n : Nat) :
    totalBalance (coins.take (n + 1)) ≤ c.balance.toNat + totalBalance (coins.take n) := by
  rw [List.take_add_one, totalBalance_append, Nat.add_comm]
  refine Nat.add_le_add_right ?_ _
  cases found : coins[n]? with
  | none => exact Nat.zero_le _
  | some d =>
    have descends := List.rel_of_pairwise_cons sorted (List.mem_of_getElem? found)
    exact descends.balance_le

theorem totalBalance_le_take_of_sublist (sorted : coins.Pairwise Descends)
    (sub : other.Sublist coins) :
    totalBalance other ≤ totalBalance (coins.take other.length) := by
  induction sub with
  | slnil => exact Nat.le_refl _
  | @cons other coins c _ ih =>
    refine (ih sorted.of_cons).trans ?_
    cases other with
    | nil => exact Nat.le_refl _
    | cons d rest => exact totalBalance_take_succ sorted rest.length
  | cons_cons c _ ih => exact Nat.add_le_add_left (ih sorted.of_cons) _

/-- The largest coins are worth at least as much as any other coins of that number. -/
theorem totalBalance_le_largest (sub : other.Subperm coins) :
    totalBalance other ≤ totalBalance ((largestFirst coins).take other.length) := by
  obtain ⟨chosen, perm, sub⟩ := sub.trans (largestFirst_perm coins).symm.subperm
  rw [← totalBalance_perm perm, ← perm.length_eq]
  exact totalBalance_le_take_of_sublist (largestFirst_descends coins) sub

/-! ### The part that covers -/

theorem exists_cover?_iff {budget : Nat} {coins : List Coin} :
    (∃ chosen, cover? budget coins = some chosen) ↔ coins ≠ [] ∧ budget ≤ totalBalance coins := by
  constructor
  · rintro ⟨chosen, covered⟩
    obtain ⟨⟨later, rfl⟩, nonempty, enough⟩ := cover?_spec covered
    rw [totalBalance_append]
    exact ⟨List.append_ne_nil_of_left_ne_nil nonempty _, Nat.le_add_right_of_le enough⟩
  · rintro ⟨nonempty, enough⟩
    induction coins generalizing budget with
    | nil => exact absurd rfl nonempty
    | cons c rest ih =>
      unfold cover?
      split
      · exact ⟨[c], rfl⟩
      · rename_i short
        rw [totalBalance] at enough
        have more : rest ≠ [] := by
          rintro rfl
          simp only [totalBalance] at enough
          omega
        obtain ⟨chosen, covered⟩ := ih more (Nat.sub_le_iff_le_add'.mpr enough)
        exact ⟨c :: chosen, by rw [covered, Option.map_some]⟩

/-- A shorter part that is not empty does not cover the budget. -/
theorem cover?_least {budget n : Nat} {coins chosen : List Coin}
    (covered : cover? budget coins = some chosen) (some : 0 < n) (fewer : n < chosen.length) :
    totalBalance (coins.take n) < budget := by
  induction coins generalizing budget chosen n with
  | nil => cases covered
  | cons c rest ih =>
    unfold cover? at covered
    split at covered
    · obtain rfl := Option.some.inj covered
      rw [List.length_singleton] at fewer
      omega
    · rename_i short
      obtain ⟨more, found, rfl⟩ := Option.map_eq_some_iff.mp covered
      obtain ⟨n, rfl⟩ := Nat.exists_eq_add_of_lt some
      rw [Nat.zero_add, List.take_succ_cons, totalBalance]
      rw [List.length_cons] at fewer
      cases n with
      | zero =>
        rw [List.take_zero, totalBalance]
        omega
      | succ n =>
        have least : totalBalance (rest.take (n + 1)) < budget - c.balance.toNat :=
          ih found n.succ_pos (by omega)
        omega

/-! ### Choosing -/

section Select

variable {budget : UInt64} {inUse : List Address} {merge : Bool}

theorem subperm_unused_iff :
    other.Subperm (unused coins inUse) ↔ other.Subperm coins ∧ ∀ c ∈ other, c.id ∉ inUse := by
  constructor
  · intro sub
    exact ⟨sub.trans (unused_sublist coins inUse).subperm, fun c inside =>
      (mem_unused.mp (sub.subset inside)).2⟩
  · rintro ⟨sub, fresh⟩
    have same : unused other inUse = other := by
      refine List.filter_eq_self.mpr fun c inside => ?_
      simpa using fresh c inside
    rw [← same]
    exact sub.filter _

/-- The first coin that covers the budget alone is taken. -/
theorem select_first {before later : List Coin} (split : unused coins inUse = before ++ c :: later)
    (small : ∀ d ∈ before, d.balance < budget) (enough : budget ≤ c.balance) :
    select coins budget inUse merge = .ok [c.ref] := by
  have none : before.find? (fun d => decide (budget ≤ d.balance)) = none := by
    refine List.find?_eq_none.mpr fun d inside => ?_
    rw [decide_eq_true_iff]
    exact UInt64.not_le.mpr (small d inside)
  unfold select
  simp only [split, List.find?_append, none, Option.none_or, List.find?_cons, enough, decide_true]

/-- Where no coin covers the budget alone, the largest ones are taken together, if they may be. -/
theorem select_small (small : ∀ c ∈ unused coins inUse, c.balance < budget) :
    select coins budget inUse merge =
      if merge then
        match cover? budget.toNat ((largestFirst (unused coins inUse)).take maxGasCoins) with
        | some chosen => .ok (chosen.map Coin.ref)
        | none => .error (.totalTooSmall (totalBalance (unused coins inUse)) budget)
      else .error (.noSingleCoin budget (unused coins inUse).length
        (totalBalance (unused coins inUse))) := by
  have none : (unused coins inUse).find? (fun d => decide (budget ≤ d.balance)) = none := by
    refine List.find?_eq_none.mpr fun d inside => ?_
    rw [decide_eq_true_iff]
    exact UInt64.not_le.mpr (small d inside)
  cases merge with
  | false => simp [select, none]
  | true =>
    cases together : cover? budget.toNat ((largestFirst (unused coins inUse)).take maxGasCoins) <;>
      simp [select, none, together]

/-- What coins can do together, the largest ones can. -/
theorem Pays.largest (pays : Pays coins inUse budget other) :
    ∃ chosen, cover? budget.toNat ((largestFirst (Gas.unused coins inUse)).take maxGasCoins) =
      some chosen := by
  have sub : other.Subperm (Gas.unused coins inUse) :=
    subperm_unused_iff.mpr ⟨pays.listed, pays.unused⟩
  refine exists_cover?_iff.mpr ⟨?_, ?_⟩
  · have count := (largestFirst_perm (Gas.unused coins inUse)).length_eq
    have some := List.length_pos_iff.mpr pays.nonempty
    have most := sub.length_le
    have limit : 0 < maxGasCoins := by decide
    rw [← List.length_pos_iff, List.length_take]
    omega
  · calc budget.toNat ≤ totalBalance other := pays.covers
      _ ≤ totalBalance ((largestFirst (Gas.unused coins inUse)).take other.length) :=
        totalBalance_le_largest sub
      _ ≤ _ := totalBalance_take_mono _ pays.length_le

/-- Coins that can pay where each is too small do not pay for nothing. -/
theorem Pays.positive (pays : Pays coins inUse budget other)
    (small : ∀ c ∈ Gas.unused coins inUse, c.balance < budget) : 0 < budget.toNat := by
  obtain ⟨c, inside⟩ := List.exists_mem_of_ne_nil other pays.nonempty
  have listed := mem_unused.mpr ⟨pays.listed.subset inside, pays.unused c inside⟩
  exact Nat.zero_lt_of_lt (UInt64.lt_iff_toNat_lt.mp (small c listed))

/-- No fewer coins cover the budget than the largest ones that do. -/
theorem cover?_fewest {chosen : List Coin} (positive : 0 < budget.toNat)
    (covered : cover? budget.toNat ((largestFirst (unused coins inUse)).take maxGasCoins) = some chosen)
    (sub : other.Subperm (unused coins inUse)) (enough : budget.toNat ≤ totalBalance other) :
    chosen.length ≤ other.length := by
  by_contra fewer
  rw [Nat.not_le] at fewer
  have some : 0 < other.length := by
    cases other with
    | nil =>
      rw [totalBalance] at enough
      omega
    | cons c rest => exact rest.length.succ_pos
  have least := cover?_least covered some fewer
  have within : other.length ≤ maxGasCoins := by
    have short := (cover?_spec covered).1.length_le
    rw [List.length_take] at short
    omega
  rw [List.take_take, Nat.min_eq_left within] at least
  have most := totalBalance_le_largest sub
  omega

end Select

/-- The choice is complete and takes the fewest coins. The first unused coin that covers the budget alone
is taken. Where there is none, coins are taken together if they may be and if at most 256 unused ones can
cover the budget at all: they come in descending order, and no fewer unused coins cover it. Otherwise
nothing is chosen. Sums of balances stay below `2 ^ 128`, whichever coins of a list they are of. -/
theorem select_fewest (coins : List Coin) (budget : UInt64) (inUse : List Address) (merge : Bool) :
    (∀ before c later, unused coins inUse = before ++ c :: later →
      (∀ d ∈ before, d.balance < budget) → budget ≤ c.balance →
      select coins budget inUse merge = .ok [c.ref]) ∧
    ((∀ c ∈ unused coins inUse, c.balance < budget) →
      (merge = true → (∃ other, Pays coins inUse budget other) →
        ∃ chosen, select coins budget inUse merge = .ok (chosen.map Coin.ref) ∧
          Pays coins inUse budget chosen ∧ chosen.Pairwise Descends ∧
          ∀ other, other.Subperm (unused coins inUse) → budget.toNat ≤ totalBalance other →
            chosen.length ≤ other.length) ∧
      (¬ (merge = true ∧ ∃ other, Pays coins inUse budget other) →
        ∃ fault, select coins budget inUse merge = .error fault)) ∧
    (coins.length ≤ 2 ^ 64 → ∀ part, part.Subperm coins → totalBalance part < 2 ^ 128) := by
  refine ⟨fun before c later split small enough => select_first split small enough, ?_, ?_⟩
  · intro small
    rw [select_small small]
    constructor
    · rintro rfl ⟨other, pays⟩
      obtain ⟨chosen, covered⟩ := pays.largest
      rw [if_pos rfl, covered]
      refine ⟨chosen, rfl, pays_largest covered, ?_, fun other sub enough => ?_⟩
      · have sub := (cover?_spec covered).1.sublist.trans (List.take_sublist _ _)
        exact (largestFirst_descends _).sublist sub
      · exact cover?_fewest (pays.positive small) covered sub enough
    · intro never
      cases merge with
      | false => exact ⟨_, rfl⟩
      | true =>
        cases covered : cover? budget.toNat ((largestFirst (unused coins inUse)).take maxGasCoins) with
        | none => exact ⟨_, rfl⟩
        | some chosen => exact absurd ⟨rfl, chosen, pays_largest covered⟩ never
  · intro short part sub
    have most := sub.length_le
    have bound := totalBalance_le part
    omega

/-- Coins of which the greatest is in use, and two others are of one balance. -/
def sampleCoins : List Coin :=
  [(9, 900), (4, 250), (2, 300), (3, 250), (1, 100)].map fun (id, balance) =>
    ⟨Coin.gasType, .ofNat id, 1, ⟨.ofNat 0⟩, balance, none⟩

theorem sampleCoins_fewest :
    select sampleCoins 500 [.ofNat 9] true = .ok [⟨.ofNat 2, 1, ⟨.ofNat 0⟩⟩, ⟨.ofNat 3, 1, ⟨.ofNat 0⟩⟩] ∧
      ∀ other, other.Subperm (unused sampleCoins [.ofNat 9]) → 500 ≤ totalBalance other →
        2 ≤ other.length := by
  obtain ⟨-, together, -⟩ := select_fewest sampleCoins 500 [.ofNat 9] true
  have small : ∀ c ∈ unused sampleCoins [.ofNat 9], c.balance < 500 := by decide +kernel
  have pays : Pays sampleCoins [.ofNat 9] 500 [sampleCoins[1], sampleCoins[2]] := by
    refine ⟨nofun, by decide, ?_, by decide +kernel, by decide⟩
    exact ((List.take_sublist 2 _).trans (List.drop_sublist 1 sampleCoins)).subperm
  obtain ⟨chosen, run, -, -, least⟩ := (together small).1 rfl ⟨_, pays⟩
  have picked : select sampleCoins 500 [.ofNat 9] true =
      .ok ([sampleCoins[2], sampleCoins[3]].map Coin.ref) := by decide +kernel
  have count := congrArg List.length (Except.ok.inj (picked.symm.trans run))
  rw [List.length_map, List.length_map] at count
  refine ⟨picked, fun other sub enough => ?_⟩
  exact count.le.trans (least other sub enough)

end MoveTx.Gas
