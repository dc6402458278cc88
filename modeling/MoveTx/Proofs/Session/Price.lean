import MoveTx.Proofs.Session.Operation

/-!
# The price of gas

A session comes by a price when the caller pins one, or when it asks the chain because none is known. A
price that is known changes only when another one is pinned.
-/

namespace MoveTx.Session
open Step

variable {σ : Type}

/-- The price is as it was, or none was known and the channel gave one. -/
def PriceLearnt (c : Channel σ) (s t : Session) : Prop :=
  t.gasPrice = s.gasPrice ∨
    s.gasPrice = none ∧ ∃ p asked answered, c.gasPrice asked = .ok p answered ∧ t.gasPrice = some p

theorem PriceLearnt.trans {c : Channel σ} {s t u : Session} (first : PriceLearnt c s t)
    (next : PriceLearnt c t u) : PriceLearnt c s u := by
  rcases next with same | ⟨unknown, answer⟩
  · rcases first with same' | ⟨unknown, p, asked, answered, answer, known⟩
    · exact Or.inl (same.trans same')
    · exact Or.inr ⟨unknown, p, asked, answered, answer, same.trans known⟩
  · rcases first with same' | ⟨-, p, asked, answered, answer, known⟩
    · exact Or.inr ⟨same' ▸ unknown, answer⟩
    · cases unknown.symm.trans known

/-! ### Finalizing -/

theorem along_eq : Along fun s t : Session => t = s :=
  ⟨fun _ => rfl, fun first next => next.trans first⟩

/-- The price is the one that is known, or else an answer of the channel, and is known from then on. -/
theorem price_ok {c : Channel σ} {s t : Online σ} {p : UInt64} (run : price c s = .ok p t) :
    t.session.gasPrice = some p ∧ PriceLearnt c s.session t.session := by
  rw [price_run] at run
  cases before : s.session.gasPrice with
  | some known =>
    rw [before] at run
    cases run
    exact ⟨before, Or.inl rfl⟩
  | none =>
    rw [before] at run
    cases answer : c.gasPrice s.chain with
    | error e chain =>
      simp only [answer] at run
      cases run
    | ok q chain =>
      simp only [answer] at run
      cases run
      exact ⟨rfl, Or.inr ⟨before, p, _, chain, answer, rfl⟩⟩

theorem Finalization.priceLearnt {c : Channel σ} {budget : Option UInt64} {coin : Option Address}
    {s t : Online σ} {data : TransactionData} (f : Finalization c budget coin s t data) :
    t.session.gasPrice = some data.gas.price ∧ PriceLearnt c s.session t.session := by
  have resolved := (moves_resolve along_eq c _).ok f.resolves
  have limited := (moves_budgetFor along_eq c _ _ _).ok f.limits
  obtain ⟨known, learnt⟩ := price_ok f.prices
  have price : data.gas.price = f.price := congrArg (fun d => d.gas.price) f.data_eq
  have kept : t.session.gasPrice = f.priced.session.gasPrice := by
    rw [f.session_eq, limited]
  rw [resolved] at learnt
  rw [price, kept]
  exact ⟨known, PriceLearnt.trans learnt (Or.inl kept)⟩

/-! ### Runs -/

theorem permits_priceLearnt (c : Channel σ) : Permits c (PriceLearnt c) where
  refl := fun _ => Or.inl rfl
  trans := PriceLearnt.trans
  price := fun _ p asked answered unknown answer => Or.inr ⟨unknown, p, asked, answered, answer, rfl⟩
  function := fun _ _ => Or.inl rfl
  finalizes := fun f => f.priceLearnt.2
  submits := fun _ _ => Or.inl rfl
  expires := fun _ _ _ _ => Or.inl rfl
  sender := fun _ _ => Or.inl rfl
  sponsor := fun _ _ => Or.inl rfl

/-- How a session that is reached came by its price. -/
inductive Priced : Session → UInt64 → Prop
  | pinned {s t : Session} (reachable : s.Reachable) {price : UInt64}
      (run : setGasPrice price s = .ok () t) : Priced t price
  | fetched {σ : Type} (c : Channel σ) (op : SessionOp) {s : Online σ} (reachable : s.session.Reachable)
      (unknown : s.session.gasPrice = none) {price : UInt64} {asked answered : σ}
      (answer : c.gasPrice asked = .ok price answered)
      (known : (after (op.step c s)).session.gasPrice = some price) :
      Priced (after (op.step c s)).session price
  | kept {σ : Type} (c : Channel σ) (op : SessionOp) {s : Online σ} {price : UInt64}
      (before : Priced s.session price)
      (same : (after (op.step c s)).session.gasPrice = s.session.gasPrice) :
      Priced (after (op.step c s)).session price

theorem Priced.known {s : Session} {price : UInt64} (priced : s.Priced price) :
    s.gasPrice = some price := by
  induction priced with
  | @pinned s t _ price run =>
    rcases modify_cases (fun s => { s with gasPrice := some price }) s with ⟨e, failed⟩ | ⟨_, _, done⟩
    · cases failed.symm.trans run
    · cases done.symm.trans run
      rfl
  | fetched c op _ _ _ known => exact known
  | kept c op _ same ih => exact same.trans ih

/-- To pin a price either fails and changes nothing, or pins it. -/
theorem setGasPrice_cases (c : Channel σ) (price : UInt64) (s : Online σ) :
    after (SessionOp.step c (.setGasPrice price) s) = s ∨
      (setGasPrice price s.session = .ok () { s.session with gasPrice := some price } ∧
        after (SessionOp.step c (.setGasPrice price) s) =
          { s with session := { s.session with gasPrice := some price } }) := by
  rcases modify_cases (fun s => { s with gasPrice := some price }) s.session with
    ⟨e, failed⟩ | ⟨_, _, done⟩
  · have failed : setGasPrice price s.session = .error e s.session := failed
    exact Or.inl (congrArg after (map_of_error (offline_of_error failed)))
  · have done : setGasPrice price s.session = .ok () { s.session with gasPrice := some price } := done
    exact Or.inr ⟨done, congrArg after (map_of_ok (offline_ok_iff.mpr ⟨_, done, rfl⟩))⟩

/-- A price that is known was pinned, or fetched when none was known. -/
theorem Reachable.priced {s : Session} (h : s.Reachable) {price : UInt64}
    (known : s.gasPrice = some price) : s.Priced price := by
  induction h with
  | start config => cases known
  | step c op s before ih =>
    have keeps : (after (op.step c s)).session.gasPrice = s.session.gasPrice →
        (after (op.step c s)).session.Priced price :=
      fun same => .kept c op (ih (same.symm.trans known)) same
    by_cases pins : ∃ pinned, op = .setGasPrice pinned
    · obtain ⟨pinned, rfl⟩ := pins
      rcases setGasPrice_cases c pinned s with stays | ⟨run, ends⟩
      · exact keeps (by rw [stays])
      · rw [ends] at known ⊢
        obtain rfl := Option.some.inj known
        exact .pinned before run
    · have moves := moves_step (permits_priceLearnt c) op (fun pinned same => absurd ⟨pinned, same⟩ pins)
        fun _ _ _ _ _ _ _ => Or.inl rfl
      rcases moves s with same | ⟨unknown, p, asked, answered, answer, now⟩
      · exact keeps same
      · obtain rfl := Option.some.inj (now.symm.trans known)
        exact .fetched c op before unknown answer known

end MoveTx.Session
