import MoveTx.Proofs.Session.Faithful
import MoveTx.Proofs.Session.Logged
import MoveTx.Proofs.Session.Payment

/-!
# Dry runs

A channel that keeps record writes down every dry run that it is asked for, and the answer. A session that
finds its own budget asks for one dry run, of the very data that it is finalized with, but for the payment
and the budget.
-/

namespace MoveTx
open Step

/-! ### Steps that are seen through a part of the state -/

namespace Part

variable {τ σ ε α β : Type} (p : Part τ σ)

/-- The result as it is seen in the part alone. -/
def view : EStateM.Result ε τ α → EStateM.Result ε σ α
  | .ok a t => .ok a (p.get t)
  | .error e t => .error e (p.get t)

/-- A step that does to the part what `x` does, whatever it does to the rest. -/
def Echoes (y : EStateM ε τ α) (x : EStateM ε σ α) : Prop :=
  ∀ t, p.view (y t) = x (p.get t)

variable {p}

theorem echoes_pure (a : α) : p.Echoes (pure a : EStateM ε τ α) (pure a) :=
  fun _ => rfl

theorem echoes_throw (e : ε) : p.Echoes (throw e : EStateM ε τ α) (throw e) :=
  fun _ => rfl

theorem echoes_lift (x : EStateM ε σ α) : p.Echoes (p.lift x) x := by
  intro t
  cases run : x (p.get t) with
  | ok a s =>
    rw [p.lift_of_ok run]
    simp only [view, p.get_put]
  | error e s =>
    rw [p.lift_of_error run]
    simp only [view, p.get_put]

theorem echoes_bind {y : EStateM ε τ α} {x : EStateM ε σ α} {g : α → EStateM ε τ β}
    {f : α → EStateM ε σ β} (first : p.Echoes y x) (rest : ∀ a, p.Echoes (g a) (f a)) :
    p.Echoes (y >>= g) (x >>= f) := by
  intro t
  have here := first t
  cases run : y t with
  | ok a u =>
    rw [run] at here
    rw [bind_of_ok run, bind_of_ok here.symm]
    exact rest a u
  | error e u =>
    rw [run] at here
    rw [bind_of_error run, bind_of_error here.symm]
    rfl

/-- What echoes a step that succeeds succeeds as well. -/
theorem Echoes.ok {y : EStateM ε τ α} {x : EStateM ε σ α} (echoes : p.Echoes y x) {t : τ} {a : α} {s : σ}
    (run : x (p.get t) = .ok a s) : ∃ u, y t = .ok a u ∧ p.get u = s := by
  have here := echoes t
  rw [run] at here
  cases ended : y t with
  | ok a' u =>
    rw [ended] at here
    obtain ⟨rfl, same⟩ := EStateM.Result.ok.inj here
    exact ⟨u, rfl, same⟩
  | error e u =>
    rw [ended] at here
    cases here

/-- The session and the part of the state of its channel. -/
def online (p : Part τ σ) : Part (Online τ) (Online σ) where
  get t := ⟨t.session, p.get t.chain⟩
  put t s := ⟨s.session, p.put t.chain s.chain⟩
  get_put t s := by rw [p.get_put]
  put_get t := by rw [p.put_get]
  put_put t s s' := by rw [p.put_put]

end Part

/-! ### The record -/

/-- A dry run that was asked for, and what it gave if the request succeeded. -/
structure Trial where
  transaction : String
  answer : Option DryRun
  deriving DecidableEq

/-- The state of a channel, and the dry runs that it was asked for. -/
structure Tried (σ : Type) where
  state : σ
  trials : List Trial

variable {σ α : Type}

/-- The state of a channel without the record. -/
def Tried.part (σ : Type) : Part (Tried σ) σ where
  get := state
  put t state := { t with state }
  get_put _ _ := rfl
  put_get _ := rfl
  put_put _ _ _ := rfl

/-- A session with a record of trials of its channel. -/
def Online.tried (s : Online σ) (trials : List Trial) : Online (Tried σ) :=
  ⟨s.session, ⟨s.chain, trials⟩⟩

/-- The channel that keeps record of the dry runs. -/
def Channel.tried (c : Channel σ) : Channel (Tried σ) where
  gasPrice := (Tried.part σ).lift c.gasPrice
  object id query := (Tried.part σ).lift (c.object id query)
  objects ids query := (Tried.part σ).lift (c.objects ids query)
  function package module name := (Tried.part σ).lift (c.function package module name)
  coins owner type cursor limit := (Tried.part σ).lift (c.coins owner type cursor limit)
  dryRun text := fun s =>
    match c.dryRun text s.state with
    | .ok r state => .ok r ⟨state, s.trials ++ [⟨text, some r⟩]⟩
    | .error e state => .error e ⟨state, s.trials ++ [⟨text, none⟩]⟩
  execute text signatures options := (Tried.part σ).lift (c.execute text signatures options)

theorem Channel.allCoins_tried (c : Channel σ) (owner : Address) (type : Option String) :
    c.tried.allCoins owner type = (Tried.part σ).lift (c.allCoins owner type) :=
  coinsFrom_lift (Tried.part σ) (fun _ _ _ _ => rfl) owner type _ _

theorem Channel.dryRun_tried (c : Channel σ) (text : String) {s t : Tried σ} {r : DryRun}
    (run : c.tried.dryRun text s = .ok r t) : t.trials = s.trials ++ [⟨text, some r⟩] := by
  have made : c.tried.dryRun text s = match c.dryRun text s.state with
    | .ok r state => .ok r ⟨state, s.trials ++ [⟨text, some r⟩]⟩
    | .error e state => .error e ⟨state, s.trials ++ [⟨text, none⟩]⟩ := rfl
  rw [made] at run
  cases answer : c.dryRun text s.state with
  | ok r' state =>
    simp only [answer] at run
    cases run
    rfl
  | error e state =>
    simp only [answer] at run
    cases run

namespace Session

/-! ### Record keeping changes nothing -/

section

variable (c : Channel σ)

theorem echoes_offline (x : SessionStep α) :
    (Tried.part σ).online.Echoes (offline x : OnlineStep (Tried σ) α) (offline x) := by
  intro s
  unfold offline
  simp only [Part.online]
  cases x s.session <;> rfl

theorem echoes_request {y : ChainRequest (Tried σ) α} {x : ChainRequest σ α}
    (echoes : (Tried.part σ).Echoes y x) : (Tried.part σ).online.Echoes (request y) (request x) := by
  intro s
  have here := echoes s.chain
  unfold request
  simp only [Part.online]
  rw [← here]
  cases y s.chain <;> rfl

theorem echoes_current :
    (Tried.part σ).online.Echoes (current : OnlineStep (Tried σ) Session) current :=
  fun _ => rfl

theorem echoes_ofExcept {ε : Type} (wrap : ε → ClientError) (x : Except ε α) :
    (Tried.part σ).online.Echoes (ofExcept wrap x : OnlineStep (Tried σ) α) (ofExcept wrap x) := by
  cases x with
  | ok a => exact Part.echoes_pure a
  | error e => exact Part.echoes_throw (wrap e)

theorem echoes_dryRun (text : String) :
    (Tried.part σ).Echoes (c.tried.dryRun text) (c.dryRun text) := by
  intro s
  simp only [Channel.tried, Tried.part]
  cases c.dryRun text s.state <;> rfl

theorem echoes_resolve (d : Draft) : (Tried.part σ).online.Echoes (resolve c.tried d) (resolve c d) := by
  unfold resolve
  simp only
  split
  · exact Part.echoes_pure d
  · apply Part.echoes_bind (echoes_request (Part.echoes_lift _))
    intro answers
    split
    · exact Part.echoes_bind (Part.echoes_throw _) fun _ => echoes_ofExcept _ _
    · exact echoes_ofExcept _ _

theorem echoes_price : (Tried.part σ).online.Echoes (price c.tried) (price c) := by
  apply Part.echoes_bind echoes_current
  intro s
  cases s.gasPrice with
  | some price => exact Part.echoes_pure price
  | none =>
    apply Part.echoes_bind (echoes_request (Part.echoes_lift _))
    intro price
    exact Part.echoes_bind (echoes_offline _) fun _ => Part.echoes_pure price

theorem echoes_estimate (d : Draft) (price : UInt64) :
    (Tried.part σ).online.Echoes (estimate c.tried d price) (estimate c d price) := by
  apply Part.echoes_bind echoes_current
  intro s
  apply Part.echoes_bind (echoes_ofExcept _ _)
  intro probe
  apply Part.echoes_bind (echoes_request (echoes_dryRun c _))
  intro r
  cases r.effects.status with
  | success => exact Part.echoes_pure _
  | failure error => exact Part.echoes_throw _

theorem echoes_budgetFor (d : Draft) (price : UInt64) (given : Option UInt64) :
    (Tried.part σ).online.Echoes (budgetFor c.tried d price given) (budgetFor c d price given) := by
  apply Part.echoes_bind echoes_current
  intro s
  cases given <|> s.config.defaultBudget with
  | some budget => exact Part.echoes_pure budget
  | none => exact echoes_estimate c d price

theorem echoes_finalize (budget : Option UInt64) (coin : Option Address) :
    (Tried.part σ).online.Echoes (finalize c.tried budget coin) (finalize c budget coin) := by
  apply Part.echoes_bind (echoes_offline _)
  intro _
  apply Part.echoes_bind echoes_current
  intro now
  apply Part.echoes_bind (echoes_resolve c _)
  intro draft
  apply Part.echoes_bind (echoes_price c)
  intro price
  apply Part.echoes_bind (echoes_budgetFor c _ _ _)
  intro limit
  apply Part.echoes_bind echoes_current
  intro s
  rw [c.allCoins_tried]
  apply Part.echoes_bind (echoes_request (Part.echoes_lift _))
  intro coins
  apply Part.echoes_bind (echoes_ofExcept _ _)
  intro payment
  cases Draft.onBuilder Builder.finalize draft with
  | error e d => exact Part.echoes_throw _
  | ok transaction d => exact Part.echoes_bind (echoes_offline _) fun _ => Part.echoes_pure _

end

/-! ### What is written down -/

section

variable {c : Channel σ} {s t : Online (Tried σ)}

theorem lift_trials {x : ChainRequest σ α} {s t : Tried σ} {a : α}
    (run : (Tried.part σ).lift x s = .ok a t) : t.trials = s.trials := by
  have kept := congrArg (fun r => (after r).trials) run
  rw [Part.after_lift] at kept
  exact kept.symm

theorem request_trials {x : ChainRequest σ α} {a : α}
    (run : request ((Tried.part σ).lift x) s = .ok a t) : t.chain.trials = s.chain.trials := by
  obtain ⟨chain, answered, rfl⟩ := request_ok_iff.mp run
  exact lift_trials answered

theorem resolve_trials {d d' : Draft} (run : resolve c.tried d s = .ok d' t) :
    t.chain.trials = s.chain.trials := by
  rcases resolve_ok run with ⟨-, -, rfl⟩ | ⟨answers, asked, -, -⟩
  · rfl
  · exact request_trials asked

theorem price_trials {p : UInt64} (run : price c.tried s = .ok p t) :
    t.chain.trials = s.chain.trials := by
  rw [price_run] at run
  cases known : s.session.gasPrice with
  | some p' =>
    rw [known] at run
    cases run
    rfl
  | none =>
    rw [known] at run
    cases answer : c.tried.gasPrice s.chain with
    | ok p' chain =>
      simp only [answer] at run
      cases run
      exact lift_trials answer
    | error e chain =>
      simp only [answer] at run
      cases run

/-- To find a budget takes one dry run, of the probe. -/
theorem estimate_trials {d : Draft} {price total : UInt64}
    (run : estimate c.tried d price s = .ok total t) :
    ∃ probe r, s.session.probe d price = .ok probe ∧ r.effects.status = .success ∧
      total = r.effects.gasUsed.total ∧
      t.chain.trials = s.chain.trials ++ [⟨Base64.encode (encode probe), some r⟩] := by
  obtain ⟨probe, r, tried, asked, success, same⟩ := estimate_asks run
  obtain ⟨chain, answered, rfl⟩ := request_ok_iff.mp asked
  exact ⟨probe, r, tried, success, same, c.dryRun_tried _ answered⟩

/-- A session that finds its own budget is finalized with one dry run, of its data but for the payment. -/
theorem Finalization.trials {coin : Option Address} {data : TransactionData}
    (f : Finalization c.tried none coin s t data) (unset : s.session.config.defaultBudget = none) :
    ∃ r, r.effects.status = .success ∧ data.gas.budget = r.effects.gasUsed.total ∧
      t.chain.trials = s.chain.trials ++ [⟨Base64.encode (encode data.unpaid), some r⟩] := by
  have terms : s.session.Frame f.priced.session :=
    ((moves_resolve along_frame c.tried _).ok f.resolves).trans
      ((moves_price (learns_frame c.tried)).ok f.prices)
  have unwanted : (none <|> f.priced.session.config.defaultBudget) = none := by
    rw [terms.config, unset]
    rfl
  obtain ⟨probe, r, tried, success, total, asked⟩ :=
    estimate_trials ((budgetFor_ok f.limits).2 unwanted)
  -- The transaction that was tried is the final one but for payment and budget.
  have same : probe = data.unpaid := by
    rw [probe_ok tried f.snapshot, terms.data_eq]
    exact congrArg TransactionData.unpaid f.data_eq.symm
  have listed : t.chain.trials = f.limited.chain.trials := by
    have lists := f.lists
    rw [c.allCoins_tried] at lists
    rw [f.chain_eq]
    exact lift_trials lists
  refine ⟨r, success, ?_, ?_⟩
  · rw [← total]
    exact congrArg (fun d => d.gas.budget) f.data_eq
  · rw [listed, asked, price_trials f.prices, resolve_trials f.resolves, same]

end

/-- What is tried is what is finalized. A session without a configured budget that is finalized without a
given one asks for exactly one dry run meanwhile. It is of the data that the session is finalized with,
but that nothing pays yet and that the budget is that of trials. The budget is then the charge for
computation and storage that the dry run reports, up to the greatest number. -/
theorem finalize_tried (c : Channel σ) {s t : Online σ} (unset : s.session.config.defaultBudget = none)
    {coin : Option Address} {data : TransactionData} (run : finalize c none coin s = .ok data t) :
    ∃ r : DryRun,
      finalize c.tried none coin (s.tried []) = .ok data (t.tried [⟨Base64.encode (encode
        { data with gas := { data.gas with payment := [], budget := dryRunBudget } }), some r⟩]) ∧
      data.gas.payment ≠ [] ∧ r.effects.status = .success ∧
      data.gas.budget.toNat =
        min (r.effects.gasUsed.computation.toNat + r.effects.gasUsed.storage.toNat) (UInt64.size - 1) := by
  obtain ⟨u, tried, same⟩ := (echoes_finalize c none coin).ok (t := s.tried []) run
  obtain ⟨f⟩ := finalize_ok tried
  obtain ⟨r, success, total, trials⟩ := f.trials unset
  obtain ⟨chosen, paid, pays⟩ := payment_pays f.pays
  refine ⟨r, ?_, ?_, success, ?_⟩
  · subst same
    rw [tried]
    exact congrArg (fun trials => EStateM.Result.ok data (Online.tried ((Tried.part σ).online.get u) trials))
      trials
  · intro none
    have none : f.payment = [] := (congrArg (fun d => d.gas.payment) f.data_eq).symm.trans none
    exact pays.nonempty (List.map_eq_nil_iff.mp (paid.symm.trans none))
  · rw [total]
    exact UInt64.toNat_ofNat_of_lt (Nat.lt_of_le_of_lt (Nat.min_le_right _ _) (by decide))

/-! ### A budget without bounds -/

/-- A chain on which every trial costs more than can be said, and everybody owns as much as can be. -/
def costlyTrials : Channel Unit :=
  { everyObject with
    coins := fun _ _ _ _ =>
      return ⟨[⟨Coin.gasType, .ofNat 102, 1, .zero, UInt64.ofNat (UInt64.size - 1), none⟩], none, false⟩
    dryRun := fun _ =>
      return ⟨⟨.success, ⟨UInt64.ofNat (UInt64.size - 1), 500, 9000, 0⟩, .zero, [], [], []⟩⟩ }

theorem costlyTrials_tried :
    ∃ data t trial, finalize costlyTrials none none receivesObject = .ok data t ∧
      finalize costlyTrials.tried none none (receivesObject.tried []) = .ok data (t.tried [trial]) ∧
      trial.transaction = Base64.encode (encode
        { data with gas := { data.gas with payment := [], budget := dryRunBudget } }) ∧
      data.gas.budget.toNat = UInt64.size - 1 := by
  have budget : (value? (finalize costlyTrials none none receivesObject)).map (·.gas.budget.toNat) =
      some (UInt64.size - 1) := by decide +kernel
  obtain ⟨data, t, run, budget⟩ := map_value?_eq_some budget
  have unset : receivesObject.session.config.defaultBudget = none := by decide +kernel
  obtain ⟨r, tried, -⟩ := finalize_tried costlyTrials unset run
  exact ⟨data, t, _, run, tried, rfl, budget⟩

end Session

end MoveTx
