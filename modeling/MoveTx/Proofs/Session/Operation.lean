import MoveTx.Proofs.Session.Finalize

/-!
# Operations of a session

Everything that can be done with a session, and which sessions can be reached by it. The chain may
answer whatever it likes, and differently each time. The draft of a session that can be reached holds a
builder that can be reached.
-/

namespace MoveTx
open Step

/-- The steps of a protocol have no other way to a builder than its operations. -/
structure UpgradeProtocol.Sealed (protocol : UpgradeProtocol) : Prop where
  authorize : ∀ cap digest, (protocol.authorize cap digest).Sealed
  commit : ∀ cap receipt, (protocol.commit cap receipt).Sealed

/-- An operation that builds on the draft of a session, without the chain. -/
inductive BuildOp
  | pure (value : PureValue)
  | uniquePure (value : PureValue)
  | object (value : CallValue)
  | command (c : Command)
  | splitCoin (coin : CallValue) (amounts : List UInt64)
  | mergeCoins (destination : CallValue) (sources : List CallValue)
  | transferObjects (objects : List CallValue) (recipient : Address)
  | makeMoveVec (type : Option TypeTag) (items : List CallValue)
  | splitCoinEqual (coin : CallValue) (count : UInt64) (type : TypeTag)
  | stake (coins : List CallValue) (validator : Address) (amount : Option UInt64)
  | unstake (staked : CallValue)
  | publicTransfer (value : CallValue) (recipient : Address) (type : TypeTag)
  | transferSui (recipient : Address) (source : Option CallValue) (amount : Option UInt64)
  | paySui (recipients : List Address) (amounts : List UInt64) (coins : List CallValue)
  | payAllSui (recipient : Address) (coins : List CallValue)
  | optionalObject (value : Option CallValue) (type : TypeTag)
  | publish (p : CompiledPackage)
  | upgrade (p : CompiledPackage) (id : Address) (cap : CallValue)
  | customUpgrade (protocol : UpgradeProtocol) (isSealed : protocol.Sealed) (p : CompiledPackage)
    (id : Address) (cap : CallValue)

inductive SessionOp
  | withSender (sender : Address)
  | withSponsor (sponsor : Address)
  | setGasPrice (price : UInt64)
  | setExpiration (expiration : Expiration)
  | build (op : BuildOp)
  | function (package : Address) (module name : String)
  | moveCall (target : String) (values : List CallValue) (typeArguments : List TypeTag)
  | finalize (budget : Option UInt64) (coin : Option Address)
  | encode
  | sign
  | signMultiSig (key : MultiSigKey) (signers : List TransactionSigner)
  | submit (t : SignedTransaction) (options : ExecuteOptions)
  | execute (options : ExecuteOptions)

inductive SessionAnswer
  | done
  | handles (handles : List Argument)
  | function (f : MoveFunction)
  | data (data : TransactionData)
  | text (text : String)
  | signed (t : SignedTransaction)
  | executed (r : ExecutionResult)

namespace BuildOp

/-- The handles that an operation gives, one unless it says otherwise. -/
def step : BuildOp → SessionStep (List Argument)
  | pure value => List.singleton <$> Session.pure value
  | uniquePure value => List.singleton <$> Session.uniquePure value
  | object value => List.singleton <$> Session.object value
  | command c => List.singleton <$> Session.command c
  | splitCoin coin amounts => Session.splitCoin coin amounts
  | mergeCoins destination sources => List.singleton <$> Session.mergeCoins destination sources
  | transferObjects objects recipient => List.singleton <$> Session.transferObjects objects recipient
  | makeMoveVec type items => List.singleton <$> Session.makeMoveVec type items
  | splitCoinEqual coin count type => List.singleton <$> Session.splitCoinEqual coin count type
  | stake coins validator amount => List.singleton <$> Session.stake coins validator amount
  | unstake staked => List.singleton <$> Session.unstake staked
  | publicTransfer value recipient type =>
    List.singleton <$> Session.publicTransfer value recipient type
  | transferSui recipient source amount =>
    List.singleton <$> Session.transferSui recipient source amount
  | paySui recipients amounts coins => List.singleton <$> Session.paySui recipients amounts coins
  | payAllSui recipient coins => List.singleton <$> Session.payAllSui recipient coins
  | optionalObject value type => List.singleton <$> Session.optionalObject value type
  | publish p => List.singleton <$> Session.publish p
  | upgrade p id cap => List.singleton <$> Session.upgrade p id cap
  | customUpgrade protocol _ p id cap => List.singleton <$> Session.customUpgrade protocol p id cap

/-- The accesses to objects that an operation asks for when it succeeds. -/
def accesses : BuildOp → List Access
  | pure _ | uniquePure _ | command _ | publish _ => []
  | object value | publicTransfer value _ _ => value.accesses none
  | splitCoin coin _ | splitCoinEqual coin _ _ => coin.accesses none
  | mergeCoins destination sources =>
    destination.accesses none ++ sources.flatMap (CallValue.accesses none)
  | transferObjects objects _ => objects.flatMap (CallValue.accesses none)
  | makeMoveVec _ items => items.flatMap (CallValue.loweredAccesses none)
  | stake coins _ _ => Draft.systemState.accesses none ++ coins.flatMap (CallValue.accesses none)
  | unstake staked => Draft.systemState.accesses none ++ staked.accesses none
  | transferSui _ source _ => source.toList.flatMap (CallValue.accesses none)
  | paySui _ _ coins | payAllSui _ coins => coins.flatMap (CallValue.accesses none)
  | optionalObject value _ => value.toList.flatMap (CallValue.accesses none)
  | upgrade _ _ cap | customUpgrade _ _ _ _ cap => cap.accesses none

/-- Whether the steps of somebody else that an operation takes, if any, are those of `P`. -/
def Takes (P : BuilderStep Argument → Prop) : BuildOp → Prop
  | customUpgrade protocol _ _ _ _ => (∀ cap digest, P (protocol.authorize cap digest)) ∧
      ∀ cap receipt, P (protocol.commit cap receipt)
  | _ => True

theorem takes_sealed (op : BuildOp) : op.Takes BuilderStep.Sealed := by
  cases op with
  | customUpgrade protocol isSealed p id cap => exact ⟨isSealed.authorize, isSealed.commit⟩
  | _ => trivial

/-- A step that leaves a session as it is when it fails, and otherwise lets its draft evolve. -/
def Builds {α : Type} (P : BuilderStep Argument → Prop) (us : List Access) (x : SessionStep α) : Prop :=
  ∀ s, (∃ e, x s = .error e s) ∨ ∃ a d, s.submitted = false ∧ s.finalized = none ∧
    Draft.Evolves P s.draft us d ∧ x s = .ok a { s with draft := d }

section

variable {α β : Type} {P : BuilderStep Argument → Prop} {us : List Access}

theorem builds_edit {x : DraftStep α} (acts : Draft.Acts P us x) : Builds P us (Session.edit x) := by
  intro s
  rcases Session.edit_cases x s with failed | ⟨a, d, unsent, undone, taken, run⟩
  · exact Or.inl failed
  · exact Or.inr ⟨a, d, unsent, undone, acts _ _ _ taken, run⟩

theorem builds_map {x : SessionStep α} {f : α → β} (builds : Builds P us x) : Builds P us (f <$> x) := by
  intro s
  rcases builds s with ⟨e, failed⟩ | ⟨a, d, unsent, undone, evolves, run⟩
  · exact Or.inl ⟨e, map_of_error failed⟩
  · exact Or.inr ⟨f a, d, unsent, undone, evolves, map_of_ok run⟩

theorem builds_guarded {x : SessionStep α} {c : Prop} [Decidable c] {e : ClientError}
    (builds : Builds P us x) : Builds P us (if c then throw e else x) := by
  split
  · exact fun s => Or.inl ⟨e, rfl⟩
  · exact builds

end

theorem builds_step {P : BuilderStep Argument → Prop} (op : BuildOp) (own : op.Takes P) :
    Builds P op.accesses op.step := by
  cases op with
  | pure value => exact builds_map (builds_edit (Draft.acts_pureInput value))
  | uniquePure value =>
    exact builds_map (builds_edit (Draft.acts_onBuilder (.uniquePure value.encoded) trivial rfl))
  | object value => exact builds_map (builds_edit (Draft.acts_lowerObject value none))
  | command c => exact builds_map (builds_edit (Draft.acts_append c))
  | splitCoin coin amounts => exact builds_edit (Draft.acts_splitCoin coin amounts)
  | mergeCoins destination sources =>
    exact builds_map (builds_edit (Draft.acts_mergeCoins destination sources))
  | transferObjects objects recipient =>
    exact builds_map (builds_edit (Draft.acts_transferObjects objects recipient))
  | makeMoveVec type items => exact builds_map (builds_edit (Draft.acts_moveVec type items))
  | splitCoinEqual coin count type =>
    exact builds_map (builds_edit (Draft.acts_splitCoinEqual coin count type))
  | stake coins validator amount =>
    exact builds_map (builds_guarded (builds_edit (Draft.acts_stake coins validator amount)))
  | unstake staked => exact builds_map (builds_edit (Draft.acts_unstake staked))
  | publicTransfer value recipient type =>
    exact builds_map (builds_edit (Draft.acts_publicTransfer value recipient type))
  | transferSui recipient source amount =>
    exact builds_map (builds_edit (Draft.acts_transferSui recipient source amount))
  | paySui recipients amounts coins =>
    exact builds_map (builds_guarded (builds_edit (Draft.acts_paySui recipients amounts coins)))
  | payAllSui recipient coins =>
    exact builds_map (builds_edit (Draft.acts_payAllSui recipient coins))
  | optionalObject value type =>
    exact builds_map (builds_edit (Draft.acts_optionalObject value type))
  | publish p => exact builds_map (builds_edit (Draft.acts_publish p))
  | upgrade p id cap => exact builds_map (builds_edit (Draft.acts_frameworkUpgrade p id cap))
  | customUpgrade protocol isSealed p id cap =>
    refine builds_map (builds_edit (Draft.acts_upgrade ?_ ?_ p id cap))
    · exact fun cap digest => Draft.acts_custom (own.1 cap digest)
    · exact fun cap receipt => Draft.acts_custom (own.2 cap receipt)

end BuildOp

variable {σ : Type}

/-- An operation on a session that talks to the chain through `c`. -/
def SessionOp.step (c : Channel σ) : SessionOp → OnlineStep σ SessionAnswer
  | withSender sender => (fun _ => .done) <$> Session.offline (modify fun s => s.withSender sender)
  | withSponsor sponsor => (fun _ => .done) <$> Session.offline (modify fun s => s.withSponsor sponsor)
  | setGasPrice price => (fun _ => .done) <$> Session.offline (Session.setGasPrice price)
  | setExpiration expiration => (fun _ => .done) <$> Session.offline (Session.setExpiration expiration)
  | build op => .handles <$> Session.offline op.step
  | function package module name => .function <$> Session.function c package module name
  | moveCall target values typeArguments =>
    .handles <$> Session.moveCall c target values typeArguments
  | finalize budget coin => .data <$> Session.finalize c budget coin
  | encode => .text <$> Session.build c
  | sign => .signed <$> Session.sign c
  | signMultiSig key signers => .signed <$> Session.signMultiSig c key signers
  | submit t options => .executed <$> Session.submit c t options
  | execute options => .executed <$> Session.execute c options

/-- Whether an operation sets a term of the transaction, and does nothing else. -/
def SessionOp.SetsTerms : SessionOp → Prop
  | withSender _ | withSponsor _ | setGasPrice _ | setExpiration _ => True
  | _ => False

/-- Whether an operation hands a transaction to the chain. -/
def SessionOp.Submits : SessionOp → Prop
  | submit _ _ | execute _ => True
  | _ => False

/-- Whether an operation adds to the draft. -/
def SessionOp.BuildsOn : SessionOp → Prop
  | build _ | moveCall _ _ _ => True
  | _ => False

namespace Session

/-- A session that operations lead to, each on any channel and whether or not it fails. An operation
that is broken off while it waits leaves what it would leave if the answer had been an error. -/
inductive Reachable : Session → Prop
  | start (config : ClientConfig) : Reachable (start config)
  | step {σ : Type} (c : Channel σ) (op : SessionOp) (s : Online σ) (before : Reachable s.session) :
      Reachable (after (op.step c s)).session

/-! ### Elementary changes -/

/-- One elementary change of a session. Terms and draft change only while the session is open. -/
inductive Change : Session → Session → Prop
  | learn {s t : Session} (frame : s.Frame t) : Change s t
  | sender (s : Session) (sender : Address) : Change s (s.withSender sender)
  | sponsor (s : Session) (sponsor : Address) : Change s (s.withSponsor sponsor)
  | price (s : Session) (price : UInt64) (unsent : s.submitted = false) (undone : s.finalized = none) :
      Change s { s with gasPrice := some price }
  | expire (s : Session) (expiration : Expiration) (unsent : s.submitted = false)
      (undone : s.finalized = none) : Change s { s with expiration := expiration }
  | edit (s : Session) (d : Draft) (unsent : s.submitted = false) (undone : s.finalized = none)
      {us : List Access} (evolves : Draft.Evolves BuilderStep.Sealed s.draft us d) :
      Change s { s with draft := d }
  | finalize {σ : Type} {c : Channel σ} {budget : Option UInt64} {coin : Option Address}
      {s t : Online σ} {data : TransactionData} (f : Finalization c budget coin s t data) :
      Change s.session t.session
  | submit (s : Session) (unsent : s.submitted = false) : Change s { s with submitted := true }

/-- Any number of elementary changes, one after the other. -/
def Changes : Session → Session → Prop :=
  Relation.ReflTransGen Change

/-! ### Finalizing and submitting -/

/-- A relation that holds along what a session learns, and along finalizing it. -/
structure Finalizes (c : Channel σ) (R : Session → Session → Prop) : Prop extends Learns c R where
  finalizes : ∀ {budget : Option UInt64} {coin : Option Address} {s t : Online σ}
    {data : TransactionData}, Finalization c budget coin s t data → R s.session t.session

/-- A relation that holds along submitting a session as well. -/
structure Concludes (c : Channel σ) (R : Session → Session → Prop) : Prop extends Finalizes c R where
  submits : ∀ s : Session, s.submitted = false → R s { s with submitted := true }

section

variable {c : Channel σ} {R : Session → Session → Prop}

theorem moves_finalize (finalizes : Finalizes c R) (budget : Option UInt64) (coin : Option Address) :
    Moves R (finalize c budget coin) := by
  intro s
  cases ended : finalize c budget coin s with
  | error e t =>
    exact fails_finalize finalizes.toAlong (moves_price finalizes.toLearns) budget coin s e t ended
  | ok data t =>
    obtain ⟨f⟩ := finalize_ok ended
    exact finalizes.finalizes f

theorem moves_finalizedData (finalizes : Finalizes c R) : Moves R (finalizedData c) := by
  have along := finalizes.toAlong
  unfold finalizedData
  apply moves_bind along (moves_current along)
  intro s
  split
  · exact moves_pure along _
  · exact moves_finalize finalizes none none

theorem moves_sign (finalizes : Finalizes c R) : Moves R (sign c) := by
  have along := finalizes.toAlong
  unfold sign
  apply moves_bind along (moves_finalizedData finalizes)
  intro data
  apply moves_bind along (moves_current along)
  intro s
  exact moves_ofExcept along _ _

theorem moves_signMultiSig (finalizes : Finalizes c R) (key : MultiSigKey) (signers : List TransactionSigner) :
    Moves R (signMultiSig c key signers) := by
  have along := finalizes.toAlong
  have rest : Moves R (do
      let data ← finalizedData c
      let s ← current
      let first := (key.signTransaction signers data).mapError ClientError.signing
      ofExcept id (s.signedWith data (first.map MultiSigEnvelope.base64))) := by
    apply moves_bind along (moves_finalizedData finalizes)
    intro data
    apply moves_bind along (moves_current along)
    intro s
    exact moves_ofExcept along _ _
  unfold signMultiSig
  apply moves_bind along (moves_current along)
  intro s
  split
  · exact moves_bind along (moves_throw along _) fun _ => rest
  · exact rest

theorem moves_submit (concludes : Concludes c R) (t : SignedTransaction) (options : ExecuteOptions) :
    Moves R (submit c t options) := by
  have along := concludes.toAlong
  unfold submit
  refine moves_bind along (moves_offline ?_) fun _ => moves_request along _
  intro s
  have run : markSubmitted s = (if s.submitted then throw .alreadySubmitted
      else set { s with submitted := true } : SessionStep Unit) s := rfl
  rw [run]
  split
  · exact along.refl s
  · rename_i unsent
    exact concludes.submits s (eq_false_of_ne_true unsent)

theorem moves_execute (concludes : Concludes c R) (options : ExecuteOptions) :
    Moves R (execute c options) := by
  have along := concludes.toAlong
  have rest : Moves R (do
      let t ← sign c
      submit c t options) :=
    moves_bind along (moves_sign concludes.toFinalizes) fun t => moves_submit concludes t options
  unfold execute
  apply moves_bind along (moves_current along)
  intro s
  split
  · exact moves_bind along (moves_throw along _) fun _ => rest
  · exact rest

end

/-! ### Building -/

/-- A relation along which the draft of an open session may change. -/
def Edits (R : Session → Session → Prop) : Prop :=
  ∀ (s : Session) (d : Draft) (us : List Access), s.submitted = false → s.finalized = none →
    Draft.Evolves BuilderStep.Sealed s.draft us d → R s { s with draft := d }

/-- A relation that holds along every other change of what a session says about itself as well, but for
its price. -/
structure Permits (c : Channel σ) (R : Session → Session → Prop) : Prop extends Concludes c R where
  expires : ∀ (s : Session) (expiration : Expiration), s.submitted = false → s.finalized = none →
    R s { s with expiration := expiration }
  sender : ∀ (s : Session) (sender : Address), R s (s.withSender sender)
  sponsor : ∀ (s : Session) (sponsor : Address), R s (s.withSponsor sponsor)

section

variable {c : Channel σ} {R : Session → Session → Prop}

theorem moves_builds {α : Type} {x : SessionStep α} {us : List Access}
    {P : BuilderStep Argument → Prop} (along : Along R)
    (edits : ∀ (s : Session) (d : Draft) (us : List Access), s.submitted = false → s.finalized = none →
      Draft.Evolves P s.draft us d → R s { s with draft := d })
    (builds : BuildOp.Builds P us x) : Moves R (offline x : OnlineStep σ α) := by
  apply moves_offline
  intro s
  rcases builds s with ⟨e, run⟩ | ⟨a, d, unsent, undone, evolves, run⟩
  · rw [run]
    exact along.refl s
  · rw [run]
    exact edits s d us unsent undone evolves

theorem moves_modify (along : Along R) {f : Session → Session}
    (change : ∀ s, s.submitted = false → s.finalized = none → R s (f s)) :
    Moves R (offline (ensureOpen >>= fun _ => modify f) : OnlineStep σ Unit) := by
  apply moves_offline
  intro s
  rcases modify_cases f s with ⟨e, run⟩ | ⟨unsent, undone, run⟩
  · rw [run]
    exact along.refl s
  · rw [run]
    exact change s unsent undone

theorem moves_moveCall {P : BuilderStep Argument → Prop} (learns : Learns c R)
    (edits : ∀ (s : Session) (d : Draft) (us : List Access), s.submitted = false → s.finalized = none →
      Draft.Evolves P s.draft us d → R s { s with draft := d })
    (target : String) (values : List CallValue) (typeArguments : List TypeTag) :
    Moves R (moveCall c target values typeArguments) := by
  have along := learns.toAlong
  unfold moveCall
  apply moves_bind along (moves_ensureOpen along)
  intro _
  apply moves_bind along (moves_ofExcept along _ _)
  intro t
  apply moves_bind along (moves_function learns _ _ _)
  intro f
  apply moves_bind along (moves_ofExcept along _ _)
  intro _
  exact moves_builds along edits (BuildOp.builds_edit (Draft.acts_call t f values typeArguments))

/-- An operation goes only where its changes may go. Where terms are set, the draft is built upon or a
transaction is submitted, it is left open whether that may be. -/
theorem moves_op (finalizes : Finalizes c R) (op : SessionOp) (terms : op.SetsTerms → Moves R (op.step c))
    (edits : op.BuildsOn → Edits R)
    (submits : op.Submits → ∀ s : Session, s.submitted = false → R s { s with submitted := true }) :
    Moves R (op.step c) := by
  have along := finalizes.toAlong
  cases op with
  | withSender | withSponsor | setGasPrice | setExpiration => exact terms trivial
  | build op =>
    exact moves_map (moves_builds along (edits trivial) (BuildOp.builds_step op op.takes_sealed))
  | function package module name =>
    exact moves_map (moves_function finalizes.toLearns package module name)
  | moveCall target values typeArguments =>
    exact moves_map (moves_moveCall finalizes.toLearns (edits trivial) target values typeArguments)
  | finalize budget coin => exact moves_map (moves_finalize finalizes budget coin)
  | encode =>
    exact moves_map (moves_bind along (moves_finalizedData finalizes) fun data => moves_pure along _)
  | sign => exact moves_map (moves_sign finalizes)
  | signMultiSig key signers => exact moves_map (moves_signMultiSig finalizes key signers)
  | submit t options => exact moves_map (moves_submit ⟨finalizes, submits trivial⟩ t options)
  | execute options => exact moves_map (moves_execute ⟨finalizes, submits trivial⟩ options)

theorem moves_step (permits : Permits c R) (op : SessionOp)
    (pins : ∀ price, op = .setGasPrice price → Moves R (op.step c)) (edits : op.BuildsOn → Edits R) :
    Moves R (op.step c) := by
  refine moves_op permits.toFinalizes op (fun sets => ?_) edits fun _ => permits.submits
  cases op with
  | withSender sender => exact moves_map (moves_offline fun s => permits.sender s sender)
  | withSponsor sponsor => exact moves_map (moves_offline fun s => permits.sponsor s sponsor)
  | setGasPrice price => exact pins price rfl
  | setExpiration expiration =>
    exact moves_map (moves_modify permits.toAlong fun s => permits.expires s expiration)
  | _ => exact sets.elim

end

/-- All that is done with a session is made of elementary changes. -/
theorem permits_changes (c : Channel σ) : Permits c Changes where
  refl := fun _ => .refl
  trans := .trans
  price := fun s p asked answered unknown answer =>
    .single (.learn ((learns_frame c).price s p asked answered unknown answer))
  function := fun s entry => .single (.learn ((learns_frame c).function s entry))
  finalizes := fun f => .single (.finalize f)
  submits := fun s unsent => .single (.submit s unsent)
  expires := fun s expiration unsent undone => .single (.expire s expiration unsent undone)
  sender := fun s sender => .single (.sender s sender)
  sponsor := fun s sponsor => .single (.sponsor s sponsor)

theorem edits_changes : Edits Changes :=
  fun s d _ unsent undone evolves => .single (.edit s d unsent undone evolves)

theorem changes_step (c : Channel σ) (op : SessionOp) : Moves Changes (op.step c) := by
  apply moves_step (permits_changes c) op _ fun _ => edits_changes
  rintro price rfl
  exact moves_map (moves_modify (permits_changes c).toAlong fun s unsent undone =>
    .single (.price s price unsent undone))

/-! ### The builder of a session -/

theorem Change.builder {s t : Session} (change : Change s t) (h : s.draft.builder.Reachable) :
    t.draft.builder.Reachable := by
  cases change with
  | learn frame =>
    rw [frame.draft]
    exact h
  | sender | sponsor | price | expire | submit => exact h
  | edit _ d unsent undone evolves => exact evolves.reachable h
  | finalize f =>
    have resolved := resolve_reachable h f.resolves
    have closed : BuilderOp.next .finalize f.draft.builder = f.closed := BuilderOp.next_eq rfl f.closes
    rw [f.session_eq, ← closed]
    exact resolved.next .finalize

theorem Reachable.builder {s : Session} (h : s.Reachable) : s.draft.builder.Reachable := by
  induction h with
  | start config => exact Builder.reachable_empty
  | step c op s _ ih =>
    -- The induction is on the changes of this one operation, each of which keeps the builder reachable.
    have changes := changes_step c op s
    generalize (after (op.step c s)).session = t at changes ⊢
    induction changes with
    | refl => exact ih
    | tail _ change ih => exact change.builder ih

end Session

end MoveTx
