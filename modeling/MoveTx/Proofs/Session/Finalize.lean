import MoveTx.Proofs.Session.Step

/-!
# Finalizing a session

What it takes for a session to be finalized, and that a session which is not finalized stays as it was,
but for what was learnt from the chain.
-/

namespace MoveTx.Session
open Step

variable {σ : Type}

/-! ### The terms of the session -/

theorem Frame.data_eq {s t : Session} (frame : s.Frame t) : t.data = s.data := by
  unfold Session.data
  rw [frame.sender, frame.gasOwner, frame.expiration]

theorem Frame.payment_eq {s t : Session} (frame : s.Frame t) : t.payment = s.payment := by
  unfold Session.payment
  rw [frame.config]

/-- How a session came to be finalized. -/
structure Finalization (c : Channel σ) (budget : Option UInt64) (coin : Option Address)
    (s t : Online σ) (data : TransactionData) where
  /-- The draft with the references of its objects. -/
  draft : Draft
  price : UInt64
  limit : UInt64
  /-- After the draft was resolved, after the price was known, and after the budget was. -/
  resolved : Online σ
  priced : Online σ
  limited : Online σ
  coins : List Coin
  payment : List ObjectRef
  transaction : ProgrammableTransaction
  closed : Builder
  chain : σ
  unsent : s.session.submitted = false
  undone : s.session.finalized = none
  resolves : resolve c s.session.draft s = .ok draft resolved
  prices : Session.price c resolved = .ok price priced
  limits : budgetFor c draft price budget priced = .ok limit limited
  lists : c.allCoins s.session.gasOwner none limited.chain = .ok coins chain
  pays : s.session.payment draft coins limit coin = .ok payment
  closes : Builder.finalize draft.builder = .ok transaction closed
  data_eq : data = s.session.data transaction payment price limit
  session_eq : t.session = { limited.session with
    draft := { draft with builder := closed }, finalized := some data }
  chain_eq : t.chain = chain

theorem finalize_ok {c : Channel σ} {budget : Option UInt64} {coin : Option Address} {s t : Online σ}
    {data : TransactionData} (run : finalize c budget coin s = .ok data t) :
    Nonempty (Finalization c budget coin s t data) := by
  unfold finalize at run
  obtain ⟨_, s₁, opened, run⟩ := bind_ok_iff.mp run
  obtain ⟨session, isOpen, rfl⟩ := offline_ok_iff.mp opened
  rcases ensureOpen_cases s.session with ⟨e, closed⟩ | ⟨unsent, undone, still⟩
  · cases closed.symm.trans isOpen
  obtain ⟨-, rfl⟩ := EStateM.Result.ok.inj (still.symm.trans isOpen)
  obtain ⟨_, _, now, run⟩ := bind_ok_iff.mp run
  obtain ⟨rfl, rfl⟩ := current_ok_iff.mp now
  obtain ⟨draft, resolved, resolves, run⟩ := bind_ok_iff.mp run
  obtain ⟨price, priced, prices, run⟩ := bind_ok_iff.mp run
  obtain ⟨limit, limited, limits, run⟩ := bind_ok_iff.mp run
  -- Until the coins are listed the terms of the session are those it began with.
  have frame : s.session.Frame limited.session :=
    ((moves_resolve along_frame c _).ok resolves).trans
      (((moves_price (learns_frame c)).ok prices).trans ((moves_budgetFor along_frame c _ _ _).ok limits))
  obtain ⟨_, _, now, run⟩ := bind_ok_iff.mp run
  obtain ⟨rfl, rfl⟩ := current_ok_iff.mp now
  obtain ⟨coins, _, asked, run⟩ := bind_ok_iff.mp run
  obtain ⟨chain, lists, rfl⟩ := request_ok_iff.mp asked
  obtain ⟨payment, _, chosen, run⟩ := bind_ok_iff.mp run
  obtain ⟨pays, rfl⟩ := ofExcept_ok_iff.mp chosen
  rw [frame.gasOwner] at lists
  rw [frame.payment_eq] at pays
  cases finished : Draft.onBuilder Builder.finalize draft with
  | error e d =>
    simp only [finished] at run
    exact (throw_ok_iff.mp run).elim
  | ok transaction d =>
    simp only [finished, frame.data_eq] at run
    obtain ⟨closed, closes, rfl⟩ := Draft.onBuilder_ok_iff.mp finished
    obtain ⟨_, _, stored, run⟩ := bind_ok_iff.mp run
    obtain ⟨kept, put, rfl⟩ := offline_ok_iff.mp stored
    obtain rfl := set_ok_iff.mp put
    obtain ⟨rfl, rfl⟩ := pure_ok_iff.mp run
    exact ⟨{
      draft, price, limit, resolved, priced, limited, coins, payment, transaction, closed, chain,
      unsent, undone, resolves, prices, limits, lists, pays, closes
      data_eq := rfl
      session_eq := rfl
      chain_eq := rfl }⟩

/-- Until it closes the builder, finalizing only learns from the chain. -/
theorem Finalization.learns {c : Channel σ} {R : Session → Session → Prop} (learns : Learns c R)
    {budget : Option UInt64} {coin : Option Address} {s t : Online σ} {data : TransactionData}
    (f : Finalization c budget coin s t data) : R s.session f.limited.session := by
  have resolved := (moves_resolve learns.toAlong c _).ok f.resolves
  have priced := (moves_price learns).ok f.prices
  have limited := (moves_budgetFor learns.toAlong c _ _ _).ok f.limits
  exact learns.trans resolved (learns.trans priced limited)

/-- A session that is not finalized learns a price at most. -/
theorem fails_finalize {c : Channel σ} {R : Session → Session → Prop} (along : Along R)
    (prices : Moves R (price c)) (budget : Option UInt64) (coin : Option Address) :
    Fails R (finalize c budget coin) := by
  unfold finalize
  apply fails_bind along (moves_ensureOpen along)
  intro _
  apply fails_bind along (moves_current along)
  intro now
  apply fails_bind along (moves_resolve along c _)
  intro draft
  apply fails_bind along prices
  intro price
  apply fails_bind along (moves_budgetFor along c _ _ _)
  intro limit
  apply fails_bind along (moves_current along)
  intro s
  apply fails_bind along (moves_request along _)
  intro coins
  apply fails_bind along (moves_ofExcept along _ _)
  intro payment
  cases Draft.onBuilder Builder.finalize draft with
  | error e d => exact (moves_throw along _).fails
  | ok transaction d =>
    intro s e t run
    cases run

/-! ### The draft -/

/-- Every answer is about the object that was asked for. -/
theorem supply_cons_ok {d t : Draft} {id : Address} {ids : List Address} {status : ObjectStatus}
    {rest : List ObjectStatus} (run : d.supply (id :: ids) (status :: rest) = .ok t) :
    ∃ object u, status.object = .ok object ∧ object.id = id ∧
      Draft.onBuilder (Builder.resolve (object.toArg (d.wantsMutable id))) d = .ok () u ∧
      u.supply ids rest = .ok t := by
  unfold Draft.supply at run
  cases found : status.object with
  | error e =>
    rw [found] at run
    cases run
  | ok object =>
    rw [found] at run
    by_cases same : object.id = id
    · cases resolved : Draft.onBuilder (Builder.resolve (object.toArg (d.wantsMutable id))) d with
      | error e u =>
        simp only [Except.mapError, bind, Except.bind, same, ne_eq, not_true_eq_false, if_false,
          resolved] at run
        cases run
      | ok _ u =>
        simp only [Except.mapError, bind, Except.bind, same, ne_eq, not_true_eq_false, if_false,
          resolved] at run
        exact ⟨object, u, rfl, same, resolved, run⟩
    · simp only [Except.mapError, bind, Except.bind, same, ne_eq, not_false_eq_true, if_true] at run
      cases run

/-- Supplying references is resolving one object after the other. -/
theorem supply_reachable {d t : Draft} {ids : List Address} {answers : List ObjectStatus}
    (h : d.builder.Reachable) (run : d.supply ids answers = .ok t) : t.builder.Reachable := by
  induction ids generalizing d answers with
  | nil =>
    obtain rfl := Except.ok.inj run
    exact h
  | cons id ids ih =>
    cases answers with
    | nil =>
      obtain rfl := Except.ok.inj run
      exact h
    | cons status rest =>
      obtain ⟨object, u, -, -, resolved, others⟩ := supply_cons_ok run
      obtain ⟨b, inside, rfl⟩ := Draft.onBuilder_ok_iff.mp resolved
      have next : BuilderOp.next (.resolve (object.toArg (d.wantsMutable id))) d.builder = b :=
        BuilderOp.next_eq rfl inside
      exact ih (next ▸ h.next _) others

/-- A resolved draft has asked for the objects it lacks, if it lacks any. -/
theorem resolve_ok {c : Channel σ} {d t : Draft} {s u : Online σ} (run : resolve c d s = .ok t u) :
    (d.builder.unresolvedIds = [] ∧ t = d ∧ u = s) ∨
      ∃ answers, request (c.objects d.builder.unresolvedIds {}) s = .ok answers u ∧
        answers.length = d.builder.unresolvedIds.length ∧
        d.supply d.builder.unresolvedIds answers = .ok t := by
  unfold resolve at run
  simp only at run
  split at run
  · rename_i none
    obtain ⟨rfl, rfl⟩ := pure_ok_iff.mp run
    exact Or.inl ⟨List.isEmpty_iff.mp none, rfl, rfl⟩
  · obtain ⟨answers, v, asked, run⟩ := bind_ok_iff.mp run
    split at run
    · obtain ⟨_, _, failed, _⟩ := bind_ok_iff.mp run
      exact (throw_ok_iff.mp failed).elim
    · rename_i count
      obtain ⟨supplied, rfl⟩ := ofExcept_ok_iff.mp run
      exact Or.inr ⟨answers, asked, not_not.mp count, supplied⟩

theorem resolve_reachable {c : Channel σ} {d t : Draft} {s u : Online σ} (h : d.builder.Reachable)
    (run : resolve c d s = .ok t u) : t.builder.Reachable := by
  rcases resolve_ok run with ⟨-, rfl, -⟩ | ⟨answers, -, -, supplied⟩
  · exact h
  · exact supply_reachable h supplied

end MoveTx.Session
