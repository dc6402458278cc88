import Mathlib.Data.List.Perm.Subperm
import MoveTx.Client.Gas
import MoveTx.Proofs.Sorting

/-!
# Coins that pay

Whatever way the coins are chosen, they can pay: there are some but not too many, they were listed and
are not in use, and together they cover the budget.
-/

namespace MoveTx.Gas

/-- Coins out of a list that can pay for a transaction. -/
structure Pays (coins : List Coin) (inUse : List Address) (budget : UInt64) (chosen : List Coin) :
    Prop where
  nonempty : chosen ≠ []
  length_le : chosen.length ≤ maxGasCoins
  listed : chosen.Subperm coins
  unused : ∀ c ∈ chosen, c.id ∉ inUse
  covers : budget.toNat ≤ totalBalance chosen

theorem unused_sublist (coins : List Coin) (inUse : List Address) : (unused coins inUse).Sublist coins :=
  List.filter_sublist

theorem mem_unused {coins : List Coin} {inUse : List Address} {c : Coin} :
    c ∈ unused coins inUse ↔ c ∈ coins ∧ c.id ∉ inUse := by
  unfold unused
  simp

/-! ### Sorting -/

theorem largestFirst_eq (coins : List Coin) :
    largestFirst coins = coins.insertionSort fun c d => ¬ precedes d c = true := by
  have step (c d : Coin) (rest : List Coin) : insertCoin c (d :: rest) =
      if ¬ precedes d c = true then c :: d :: rest else d :: insertCoin c rest := by
    rw [insertCoin, ite_not]
  exact foldr_eq_insertionSort insertCoin (fun _ => rfl) step coins

theorem largestFirst_perm (coins : List Coin) : (largestFirst coins).Perm coins := by
  rw [largestFirst_eq]
  exact List.perm_insertionSort _ coins

/-! ### Covering -/

/-- What covers a budget is an initial part of the coins, and covers it. -/
theorem cover?_spec {budget : Nat} {coins chosen : List Coin}
    (covered : cover? budget coins = some chosen) :
    chosen <+: coins ∧ chosen ≠ [] ∧ budget ≤ totalBalance chosen := by
  induction coins generalizing budget chosen with
  | nil => cases covered
  | cons c rest ih =>
    unfold cover? at covered
    split at covered
    · rename_i enough
      obtain rfl := Option.some.inj covered
      refine ⟨⟨rest, rfl⟩, List.cons_ne_nil _ _, ?_⟩
      simp only [totalBalance]
      omega
    · obtain ⟨more, found, rfl⟩ := Option.map_eq_some_iff.mp covered
      obtain ⟨initial, -, enough⟩ := ih found
      refine ⟨(List.prefix_cons_inj c).mpr initial, List.cons_ne_nil _ _, ?_⟩
      simp only [totalBalance]
      omega

/-! ### Choosing -/

theorem pays_single {coins : List Coin} {inUse : List Address} {budget : UInt64} {c : Coin}
    (listed : c ∈ coins) (fresh : c.id ∉ inUse) (enough : budget ≤ c.balance) :
    Pays coins inUse budget [c] where
  nonempty := List.cons_ne_nil _ _
  length_le := by simp [maxGasCoins]
  listed := List.singleton_subperm_iff.mpr listed
  unused := by simpa using fresh
  covers := by simpa [totalBalance] using UInt64.le_iff_toNat_le.mp enough

/-- The largest coins that cover the budget can pay. -/
theorem pays_largest {coins chosen : List Coin} {inUse : List Address} {budget : UInt64}
    (covered : cover? budget.toNat ((largestFirst (unused coins inUse)).take maxGasCoins) = some chosen) :
    Pays coins inUse budget chosen := by
  obtain ⟨initial, nonempty, covers⟩ := cover?_spec covered
  have sub : chosen.Sublist (largestFirst (unused coins inUse)) :=
    initial.sublist.trans (List.take_sublist _ _)
  have listed : chosen.Subperm (unused coins inUse) :=
    sub.subperm.trans (largestFirst_perm _).subperm
  refine ⟨nonempty, ?_, listed.trans (unused_sublist _ _).subperm, ?_, covers⟩
  · have short := initial.length_le
    rw [List.length_take] at short
    omega
  · intro c inside
    exact (mem_unused.mp (listed.subset inside)).2

theorem select_pays {coins : List Coin} {budget : UInt64} {inUse : List Address} {merge : Bool}
    {payment : List ObjectRef} (run : select coins budget inUse merge = .ok payment) :
    ∃ chosen, payment = chosen.map Coin.ref ∧ Pays coins inUse budget chosen := by
  unfold select at run
  simp only at run
  split at run
  · rename_i c found
    obtain rfl := Except.ok.inj run
    have inside := List.mem_of_find?_eq_some found
    obtain ⟨listed, fresh⟩ := mem_unused.mp inside
    exact ⟨[c], rfl, pays_single listed fresh (by simpa using List.find?_some found)⟩
  · split at run
    · split at run
      · rename_i chosen covered
        obtain rfl := Except.ok.inj run
        exact ⟨chosen, rfl, pays_largest covered⟩
      · cases run
    · cases run

theorem explicit_pays {coins : List Coin} {id : Address} {budget : UInt64} {inUse : List Address}
    {payment : List ObjectRef} (run : explicit coins id budget inUse = .ok payment) :
    ∃ chosen, payment = chosen.map Coin.ref ∧ Pays coins inUse budget chosen := by
  unfold explicit at run
  split at run
  · cases run
  · rename_i fresh
    split at run
    · cases run
    · rename_i c found
      split at run
      · cases run
      · rename_i enough
        obtain rfl := Except.ok.inj run
        have same : c.id = id := by simpa using List.find?_some found
        refine ⟨[c], rfl, pays_single (List.mem_of_find?_eq_some found) ?_ (UInt64.not_lt.mp enough)⟩
        rw [same]
        simpa using fresh

/-- Coins with ids of their own are not chosen twice. -/
theorem Pays.ids_nodup {coins chosen : List Coin} {inUse : List Address} {budget : UInt64}
    (pays : Pays coins inUse budget chosen) (distinct : (coins.map Coin.id).Nodup) :
    ((chosen.map Coin.ref).map ObjectRef.id).Nodup := by
  obtain ⟨initial, perm, sub⟩ := pays.listed
  rw [List.map_map]
  exact ((perm.map Coin.id).nodup_iff).mp (distinct.sublist (sub.map Coin.id))

end MoveTx.Gas
