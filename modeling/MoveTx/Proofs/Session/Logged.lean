import MoveTx.Proofs.Session.Call

/-!
# Logged channels

A logged channel writes down every transaction that it is asked to execute, also when that fails. A
session does not notice: it does on a logged channel what it does on the channel itself.
-/

namespace MoveTx
open Step

/-! ### Steps on a part of the state -/

/-- A part of a state that can be looked at and replaced. -/
structure Part (τ σ : Type) where
  get : τ → σ
  put : τ → σ → τ
  get_put : ∀ t s, get (put t s) = s
  put_get : ∀ t, put t (get t) = t
  put_put : ∀ t s s', put (put t s) s' = put t s'

namespace Part

variable {τ σ ε α β : Type} (p : Part τ σ)

/-- A step on the part, which leaves the rest as it is. -/
def lift (x : EStateM ε σ α) : EStateM ε τ α := fun t =>
  match x (p.get t) with
  | .ok a s => .ok a (p.put t s)
  | .error e s => .error e (p.put t s)

theorem lift_of_ok {x : EStateM ε σ α} {t : τ} {a : α} {s : σ} (run : x (p.get t) = .ok a s) :
    p.lift x t = .ok a (p.put t s) := by
  unfold lift
  rw [run]

theorem lift_of_error {x : EStateM ε σ α} {t : τ} {e : ε} {s : σ} (run : x (p.get t) = .error e s) :
    p.lift x t = .error e (p.put t s) := by
  unfold lift
  rw [run]

theorem lift_pure (a : α) : p.lift (pure a : EStateM ε σ α) = pure a := by
  funext t
  have run : (pure a : EStateM ε σ α) (p.get t) = .ok a (p.get t) := rfl
  rw [p.lift_of_ok run, p.put_get]
  rfl

theorem lift_throw (e : ε) : p.lift (throw e : EStateM ε σ α) = throw e := by
  funext t
  have run : (throw e : EStateM ε σ α) (p.get t) = .error e (p.get t) := rfl
  rw [p.lift_of_error run, p.put_get]
  rfl

theorem lift_bind (x : EStateM ε σ α) (f : α → EStateM ε σ β) :
    p.lift (x >>= f) = p.lift x >>= fun a => p.lift (f a) := by
  funext t
  cases run : x (p.get t) with
  | error e s => rw [p.lift_of_error (bind_of_error run), bind_of_error (p.lift_of_error run)]
  | ok a s =>
    rw [bind_of_ok (p.lift_of_ok run)]
    cases next : f a s with
    | ok b u =>
      have same : f a (p.get (p.put t s)) = .ok b u := by rw [p.get_put, next]
      rw [p.lift_of_ok ((bind_of_ok run).trans next), p.lift_of_ok same, p.put_put]
    | error e u =>
      have same : f a (p.get (p.put t s)) = .error e u := by rw [p.get_put, next]
      rw [p.lift_of_error ((bind_of_ok run).trans next), p.lift_of_error same, p.put_put]

theorem lift_map (f : α → β) (x : EStateM ε σ α) : p.lift (f <$> x) = f <$> p.lift x := by
  funext t
  cases run : x (p.get t) with
  | ok a s => rw [p.lift_of_ok (map_of_ok run), map_of_ok (p.lift_of_ok run)]
  | error e s => rw [p.lift_of_error (map_of_error run), map_of_error (p.lift_of_error run)]

theorem after_lift (x : EStateM ε σ α) (t : τ) : after (p.lift x t) = p.put t (after (x (p.get t))) := by
  cases run : x (p.get t) with
  | ok a s =>
    rw [p.lift_of_ok run]
    rfl
  | error e s =>
    rw [p.lift_of_error run]
    rfl

end Part

/-! ### The log -/

/-- The state of a channel, and the transactions that it was asked to execute. -/
structure Logged (σ : Type) where
  state : σ
  executed : List SignedTransaction

variable {σ α β : Type}

/-- The state of a channel without the log. -/
def Logged.part (σ : Type) : Part (Logged σ) σ where
  get := state
  put t state := { t with state }
  get_put _ _ := rfl
  put_get _ := rfl
  put_put _ _ _ := rfl

/-- A session on a channel, without the channel's log. -/
def Online.unlogged (σ : Type) : Part (Online (Logged σ)) (Online σ) where
  get t := ⟨t.session, t.chain.state⟩
  put t s := ⟨s.session, { t.chain with state := s.chain }⟩
  get_put _ _ := rfl
  put_get _ := rfl
  put_put _ _ _ := rfl

def Channel.logged (c : Channel σ) : Channel (Logged σ) where
  gasPrice := (Logged.part σ).lift c.gasPrice
  object id query := (Logged.part σ).lift (c.object id query)
  objects ids query := (Logged.part σ).lift (c.objects ids query)
  function package module name := (Logged.part σ).lift (c.function package module name)
  coins owner type cursor limit := (Logged.part σ).lift (c.coins owner type cursor limit)
  dryRun text := (Logged.part σ).lift (c.dryRun text)
  execute text signatures options := fun s =>
    (Logged.part σ).lift (c.execute text signatures options)
      { s with executed := s.executed ++ [⟨text, signatures⟩] }

/-- Coins are listed on a part of the state when each page is asked for there. -/
theorem Channel.coinsFrom_lift {τ : Type} (p : Part τ σ) {c : Channel σ} {d : Channel τ}
    (pages : ∀ owner type cursor limit,
      d.coins owner type cursor limit = p.lift (c.coins owner type cursor limit))
    (owner : Address) (type : Option String) (count : Nat) (cursor : Option String) :
    d.coinsFrom owner type count cursor = p.lift (c.coinsFrom owner type count cursor) := by
  induction count generalizing cursor with
  | zero => exact (p.lift_throw _).symm
  | succ count ih =>
    unfold coinsFrom
    rw [Part.lift_bind, pages]
    apply congrArg
    funext page
    split
    · rw [Part.lift_bind, ih]
      apply congrArg
      funext rest
      exact (p.lift_pure _).symm
    · exact (p.lift_pure _).symm

theorem Channel.allCoins_logged (c : Channel σ) (owner : Address) (type : Option String) :
    c.logged.allCoins owner type = (Logged.part σ).lift (c.allCoins owner type) :=
  coinsFrom_lift (Logged.part σ) (fun _ _ _ _ => rfl) owner type _ _

theorem Channel.after_execute_logged (c : Channel σ) (text : String) (signatures : List String)
    (options : ExecuteOptions) (s : Logged σ) :
    after (c.logged.execute text signatures options s) =
      ⟨after (c.execute text signatures options s.state), s.executed ++ [⟨text, signatures⟩]⟩ :=
  (Logged.part σ).after_lift _ _

namespace Session

/-! ### Steps that leave the log alone -/

/-- A step on a logged channel that does what `x` does, and leaves the log as it is. -/
def Quiet (y : OnlineStep (Logged σ) α) (x : OnlineStep σ α) : Prop :=
  y = (Online.unlogged σ).lift x

theorem Quiet.executed {y : OnlineStep (Logged σ) α} {x : OnlineStep σ α} (quiet : Quiet y x)
    (s : Online (Logged σ)) : (after (y s)).chain.executed = s.chain.executed := by
  rw [quiet, Part.after_lift]
  rfl

theorem quiet_pure (a : α) : Quiet (Pure.pure a : OnlineStep (Logged σ) α) (Pure.pure a) :=
  ((Online.unlogged σ).lift_pure a).symm

theorem quiet_throw (e : ClientError) : Quiet (throw e : OnlineStep (Logged σ) α) (throw e) :=
  ((Online.unlogged σ).lift_throw e).symm

theorem quiet_bind {y : OnlineStep (Logged σ) α} {x : OnlineStep σ α} {g : α → OnlineStep (Logged σ) β}
    {f : α → OnlineStep σ β} (first : Quiet y x) (rest : ∀ a, Quiet (g a) (f a)) :
    Quiet (y >>= g) (x >>= f) := by
  obtain rfl : g = fun a => (Online.unlogged σ).lift (f a) := funext rest
  rw [Quiet, Part.lift_bind, first]

theorem quiet_map {y : OnlineStep (Logged σ) α} {x : OnlineStep σ α} (f : α → β) (quiet : Quiet y x) :
    Quiet (f <$> y) (f <$> x) := by
  rw [Quiet, Part.lift_map, quiet]

theorem quiet_current : Quiet (current : OnlineStep (Logged σ) Session) current :=
  rfl

theorem quiet_offline (x : SessionStep α) : Quiet (offline x : OnlineStep (Logged σ) α) (offline x) := by
  funext s
  unfold offline Part.lift
  simp only [Online.unlogged]
  cases x s.session <;> rfl

theorem quiet_request (r : ChainRequest σ α) : Quiet (request ((Logged.part σ).lift r)) (request r) := by
  funext s
  unfold request Part.lift
  simp only [Online.unlogged, Logged.part]
  cases r s.chain.state <;> rfl

theorem quiet_ofExcept {ε : Type} (wrap : ε → ClientError) (x : Except ε α) :
    Quiet (ofExcept wrap x : OnlineStep (Logged σ) α) (ofExcept wrap x) := by
  cases x with
  | ok a => exact quiet_pure a
  | error e => exact quiet_throw (wrap e)

section

variable (c : Channel σ)

theorem quiet_resolve (d : Draft) : Quiet (resolve c.logged d) (resolve c d) := by
  unfold resolve
  simp only
  split
  · exact quiet_pure d
  · apply quiet_bind (quiet_request _)
    intro answers
    split
    · exact quiet_bind (quiet_throw _) fun _ => quiet_ofExcept _ _
    · exact quiet_ofExcept _ _

theorem quiet_price : Quiet (price c.logged) (price c) := by
  apply quiet_bind quiet_current
  intro s
  cases s.gasPrice with
  | some price => exact quiet_pure price
  | none =>
    apply quiet_bind (quiet_request _)
    intro price
    exact quiet_bind (quiet_offline _) fun _ => quiet_pure price

theorem quiet_estimate (d : Draft) (price : UInt64) :
    Quiet (estimate c.logged d price) (estimate c d price) := by
  apply quiet_bind quiet_current
  intro s
  apply quiet_bind (quiet_ofExcept _ _)
  intro probe
  apply quiet_bind (quiet_request _)
  intro r
  cases r.effects.status with
  | success => exact quiet_pure _
  | failure error => exact quiet_throw _

theorem quiet_budgetFor (d : Draft) (price : UInt64) (given : Option UInt64) :
    Quiet (budgetFor c.logged d price given) (budgetFor c d price given) := by
  apply quiet_bind quiet_current
  intro s
  cases given <|> s.config.defaultBudget with
  | some budget => exact quiet_pure budget
  | none => exact quiet_estimate c d price

theorem quiet_finalize (budget : Option UInt64) (coin : Option Address) :
    Quiet (finalize c.logged budget coin) (finalize c budget coin) := by
  apply quiet_bind (quiet_offline _)
  intro _
  apply quiet_bind quiet_current
  intro now
  apply quiet_bind (quiet_resolve c _)
  intro draft
  apply quiet_bind (quiet_price c)
  intro price
  apply quiet_bind (quiet_budgetFor c _ _ _)
  intro limit
  apply quiet_bind quiet_current
  intro s
  rw [c.allCoins_logged]
  apply quiet_bind (quiet_request _)
  intro coins
  apply quiet_bind (quiet_ofExcept _ _)
  intro payment
  cases Draft.onBuilder Builder.finalize draft with
  | error e d => exact quiet_throw _
  | ok transaction d => exact quiet_bind (quiet_offline _) fun _ => quiet_pure _

theorem quiet_finalizedData : Quiet (finalizedData c.logged) (finalizedData c) := by
  apply quiet_bind quiet_current
  intro s
  cases s.finalized with
  | some data => exact quiet_pure data
  | none => exact quiet_finalize c none none

theorem quiet_function (package : Address) (module name : String) :
    Quiet (function c.logged package module name) (function c package module name) := by
  apply quiet_bind quiet_current
  intro s
  cases s.functions.find? fun entry => entry.1 == MoveFunction.fullName package module name with
  | some entry => exact quiet_pure entry.2
  | none =>
    apply quiet_bind (quiet_request _)
    intro f
    exact quiet_bind (quiet_offline _) fun _ => quiet_pure f

theorem quiet_moveCall (target : String) (values : List CallValue) (typeArguments : List TypeTag) :
    Quiet (moveCall c.logged target values typeArguments) (moveCall c target values typeArguments) := by
  apply quiet_bind (quiet_offline _)
  intro _
  apply quiet_bind (quiet_ofExcept _ _)
  intro t
  apply quiet_bind (quiet_function c _ _ _)
  intro f
  exact quiet_bind (quiet_ofExcept _ _) fun _ => quiet_offline _

theorem quiet_build : Quiet (build c.logged) (build c) :=
  quiet_bind (quiet_finalizedData c) fun _ => quiet_pure _

theorem quiet_sign : Quiet (sign c.logged) (sign c) := by
  apply quiet_bind (quiet_finalizedData c)
  intro data
  exact quiet_bind quiet_current fun s => quiet_ofExcept _ _

theorem quiet_signMultiSig (key : MultiSigKey) (signers : List TransactionSigner) :
    Quiet (signMultiSig c.logged key signers) (signMultiSig c key signers) := by
  have rest : Quiet (do
      let data ← finalizedData c.logged
      let s ← current
      let first := (key.signTransaction signers data).mapError ClientError.signing
      ofExcept id (s.signedWith data (first.map MultiSigEnvelope.base64))) (do
      let data ← finalizedData c
      let s ← current
      let first := (key.signTransaction signers data).mapError ClientError.signing
      ofExcept id (s.signedWith data (first.map MultiSigEnvelope.base64))) := by
    apply quiet_bind (quiet_finalizedData c)
    intro data
    exact quiet_bind quiet_current fun s => quiet_ofExcept _ _
  apply quiet_bind quiet_current
  intro s
  split
  · exact quiet_bind (quiet_throw _) fun _ => rest
  · exact rest

/-- Every call is quiet that hands nothing to the chain. -/
theorem quiet_call {call : Call} (keeps : ¬ call.Submits) : Quiet (call.step c.logged) (call.step c) := by
  cases call with
  | customUpgrade protocol p id cap => exact quiet_map _ (quiet_offline _)
  | op o =>
    cases o with
    | withSender | withSponsor | setGasPrice | setExpiration | build =>
      exact quiet_map _ (quiet_offline _)
    | function package module name => exact quiet_map _ (quiet_function c package module name)
    | moveCall target values typeArguments =>
      exact quiet_map _ (quiet_moveCall c target values typeArguments)
    | finalize budget coin => exact quiet_map _ (quiet_finalize c budget coin)
    | encode => exact quiet_map _ (quiet_build c)
    | sign => exact quiet_map _ (quiet_sign c)
    | signMultiSig key signers => exact quiet_map _ (quiet_signMultiSig c key signers)
    | submit | execute => exact absurd trivial keeps

end

end Session

end MoveTx
