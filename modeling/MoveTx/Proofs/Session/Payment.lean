import MoveTx.Proofs.Builder.Finish
import MoveTx.Proofs.Client.Gas
import MoveTx.Proofs.Session.Operation

/-!
# Payment of a finalized session

A session that is finalized pays with coins that the chain listed for the owner of the gas and that the
transaction does not use otherwise.
-/

namespace MoveTx.Session
open Step

variable {σ : Type}

theorem payment_pays {s : Session} {d : Draft} {coins : List Coin} {budget : UInt64}
    {coin : Option Address} {payment : List ObjectRef}
    (run : s.payment d coins budget coin = .ok payment) :
    ∃ chosen, payment = chosen.map Coin.ref ∧
      Gas.Pays coins d.builder.objectsInUse budget chosen := by
  unfold Session.payment at run
  split at run
  · exact Gas.explicit_pays run
  · exact Gas.select_pays run

/-- Gas is safe. The payment is made of some of the coins that were listed for the owner of the gas, no
more than are allowed, and none of them is an input of the transaction. If the listed coins have ids of
their own, no coin pays twice, and together they cover the budget. -/
theorem finalize_payment (c : Channel σ) {s t : Online σ} (reachable : s.session.Reachable)
    {budget : Option UInt64} {coin : Option Address} {data : TransactionData}
    (run : finalize c budget coin s = .ok data t) :
    data.gas.owner = s.session.gasOwner ∧ data.gas.payment ≠ [] ∧
      data.gas.payment.length ≤ maxGasCoins ∧
      (∀ paid ∈ data.gas.payment, ∀ input ∈ data.kind.transaction.inputs,
        input.objectId? ≠ some paid.id) ∧
      ∃ asked coins chosen, c.allCoins s.session.gasOwner none asked = .ok coins t.chain ∧
        (∀ paid ∈ chosen, paid ∈ coins) ∧ data.gas.payment = chosen.map Coin.ref ∧
        ((coins.map Coin.id).Nodup → (data.gas.payment.map ObjectRef.id).Nodup ∧
          data.gas.budget.toNat ≤ Gas.totalBalance chosen) := by
  obtain ⟨f⟩ := finalize_ok run
  obtain ⟨chosen, same, pays⟩ := payment_pays f.pays
  have wellFormed := (resolve_reachable reachable.builder f.resolves).wellFormed
  have gas : data.gas = ⟨f.payment, s.session.gasOwner, f.price, f.limit⟩ :=
    congrArg TransactionData.gas f.data_eq
  have kind : data.kind.transaction = f.transaction :=
    congrArg (fun d => d.kind.transaction) f.data_eq
  rw [gas, kind, same]
  refine ⟨rfl, ?_, ?_, ?_, f.limited.chain, f.coins, chosen, ?_, ?_, rfl, ?_⟩
  · intro none
    exact pays.nonempty (List.map_eq_nil_iff.mp none)
  · simpa using pays.length_le
  · intro paid inside input present names
    obtain ⟨c, picked, rfl⟩ := List.mem_map.mp inside
    rcases Builder.finalize_cases f.draft.builder with ⟨e, failed⟩ | ⟨t', _, taken, _, closed⟩
    · cases failed.symm.trans f.closes
    · obtain ⟨rfl, -⟩ := EStateM.Result.ok.inj (closed.symm.trans f.closes)
      exact pays.unused c picked (Builder.input_in_use wellFormed taken present names)
  · rw [f.lists, f.chain_eq]
  · exact fun paid inside => pays.listed.subset inside
  · exact fun distinct => ⟨pays.ids_nodup distinct, pays.covers⟩

/-! ### A coin that is sent does not pay -/

def coinOf (id : Nat) (balance : UInt64) : Coin :=
  ⟨Coin.gasType, .ofNat id, 1, .zero, balance, none⟩

/-- A chain on which everybody owns the same two coins. -/
def twoCoins : Channel Unit where
  gasPrice := return 1000
  object id _ := throw (.notAvailable id .missing)
  objects _ _ := return []
  function _ _ name := throw (.functionNotFound name)
  coins _ _ _ _ := return ⟨[coinOf 101 9000, coinOf 102 5000], none, false⟩
  dryRun _ := throw (.execution .notSigned)
  execute _ _ _ := throw (.execution .notSigned)

/-- A session that sends the first of the two coins. -/
def sendsCoin : Online Unit :=
  after (SessionOp.step twoCoins (.build (.transferObjects [.object (coinOf 101 9000).ref] .clock))
    ⟨start {}, ()⟩)

theorem sendsCoin_payment :
    ∃ data t, finalize twoCoins (some 4000) none sendsCoin = .ok data t ∧
      data.gas.payment = [(coinOf 102 5000).ref] ∧
      ∀ paid ∈ data.gas.payment, ∀ input ∈ data.kind.transaction.inputs,
        input.objectId? ≠ some paid.id := by
  have reachable : sendsCoin.session.Reachable := .step twoCoins _ _ (.start {})
  have run : finalize twoCoins (some 4000) none sendsCoin = .ok _ _ := rfl
  exact ⟨_, _, run, rfl, (finalize_payment twoCoins reachable run).2.2.2.1⟩

end MoveTx.Session
