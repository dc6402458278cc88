import MoveTx.Draft.Coins
import MoveTx.Draft.Packages
import MoveTx.Proofs.Builder.Run
import MoveTx.Proofs.Draft.Access

/-!
# How drafts evolve

Everything that is done to a draft is made of elementary acts: a value that names an object is lowered,
or the builder inside takes a step that admits no object. Where somebody else upgrades a package, the
builder takes steps of theirs. Each act comes with the accesses
that it asks for.
-/

namespace MoveTx
open Step

namespace Draft

variable {P : BuilderStep Argument → Prop}

/-- One elementary act on a draft, with the accesses that it asks for. The steps of somebody else are
those of `P`. -/
inductive Act (P : BuilderStep Argument → Prop) (d : Draft) : List Access → Draft → Prop
  | lower (value : CallValue) (p : Parameter) (a : Argument) (t : Draft)
      (run : lowerObject value p d = .ok a t) : Act P d (value.accesses p) t
  | build (op : BuilderOp) (plain : op.Plain) (answer : BuilderAnswer) (b : Builder)
      (run : op.step d.builder = .ok answer b) : Act P d [] { d with builder := b }
  | custom (x : BuilderStep Argument) (own : P x) (a : Argument) (b : Builder)
      (run : x d.builder = .ok a b) : Act P d [] { d with builder := b }

/-- Any number of elementary acts, one after the other. -/
inductive Evolves (P : BuilderStep Argument → Prop) (d : Draft) : List Access → Draft → Prop
  | refl : Evolves P d [] d
  | tail {us vs : List Access} {t u : Draft} (before : Evolves P d us t) (act : Act P t vs u) :
      Evolves P d (us ++ vs) u

theorem Act.evolves {d t : Draft} {us : List Access} (act : Act P d us t) : Evolves P d us t :=
  .tail .refl act

theorem Evolves.trans {d t u : Draft} {us vs : List Access} (first : Evolves P d us t)
    (rest : Evolves P t vs u) : Evolves P d (us ++ vs) u := by
  induction rest with
  | refl =>
    rw [List.append_nil]
    exact first
  | tail _ act ih =>
    rw [← List.append_assoc]
    exact ih.tail act

/-- A step that is made of elementary acts with these accesses whenever it succeeds. -/
def Acts {α : Type} (P : BuilderStep Argument → Prop) (us : List Access) (x : DraftStep α) : Prop :=
  ∀ d a t, x d = .ok a t → Evolves P d us t

section

variable {α β : Type} {us vs : List Access}

theorem acts_pure (a : α) : Acts P [] (pure a : DraftStep α) := by
  intro d b t run
  obtain ⟨-, rfl⟩ := pure_ok_iff.mp run
  exact .refl

theorem acts_throw (e : BuilderError) : Acts P us (throw e : DraftStep α) :=
  fun _ _ _ run => (throw_ok_iff.mp run).elim

theorem acts_bind {x : DraftStep α} {f : α → DraftStep β} (first : Acts P us x)
    (rest : ∀ a, Acts P vs (f a)) : Acts P (us ++ vs) (x >>= f) := by
  intro d b t run
  obtain ⟨a, u, here, there⟩ := bind_ok_iff.mp run
  exact (first d a u here).trans (rest a u b t there)

/-- What comes after a step need not ask for anything. -/
theorem acts_then {x : DraftStep α} {f : α → DraftStep β} (first : Acts P us x)
    (rest : ∀ a, Acts P [] (f a)) : Acts P us (x >>= f) := by
  rw [← List.append_nil us]
  exact acts_bind first rest

theorem acts_mapM {u : α → List Access} {f : α → DraftStep β} (each : ∀ a, Acts P (u a) (f a))
    (as : List α) : Acts P (as.flatMap u) (as.mapM f) := by
  induction as with
  | nil => exact acts_pure []
  | cons a rest ih =>
    rw [List.mapM_cons, List.flatMap_cons]
    exact acts_bind (each a) fun b => acts_then ih fun bs => acts_pure (b :: bs)

theorem acts_mapM_plain {f : α → DraftStep β} (each : ∀ a, Acts P [] (f a)) (as : List α) :
    Acts P [] (as.mapM f) := by
  have all := acts_mapM each as
  rw [List.flatMap_eq_nil_iff.mpr fun _ _ => rfl] at all
  exact all

theorem onBuilder_ok_iff {x : BuilderStep α} {d t : Draft} {a : α} :
    onBuilder x d = .ok a t ↔ ∃ b, x d.builder = .ok a b ∧ t = { d with builder := b } := by
  unfold onBuilder
  cases x d.builder with
  | ok a' b =>
    simp only [EStateM.Result.ok.injEq]
    constructor
    · rintro ⟨rfl, rfl⟩
      exact ⟨b, ⟨rfl, rfl⟩, rfl⟩
    · rintro ⟨_, ⟨rfl, rfl⟩, rfl⟩
      exact ⟨rfl, rfl⟩
  | error e b => simp

theorem noteUse_bind {id : Address} {isMutable : Bool} {f : Unit → DraftStep α} {d : Draft} :
    (noteUse id isMutable >>= f) d = f () { d with uses := ⟨id, isMutable⟩ :: d.uses } :=
  rfl

theorem acts_onBuilder {x : BuilderStep α} {f : α → BuilderAnswer} (op : BuilderOp) (plain : op.Plain)
    (made : op.step = f <$> x) : Acts P [] (onBuilder x) := by
  intro d a t run
  obtain ⟨b, inside, rfl⟩ := onBuilder_ok_iff.mp run
  refine (Act.build op plain (f a) b ?_).evolves
  rw [made]
  exact map_of_ok inside

theorem acts_onBuilder_bind {x : BuilderStep α} {f : α → BuilderStep β}
    (first : Acts P [] (onBuilder x)) (rest : ∀ a, Acts P [] (onBuilder (f a))) :
    Acts P [] (onBuilder (x >>= f)) := by
  intro d b t run
  obtain ⟨c, inside, rfl⟩ := onBuilder_ok_iff.mp run
  obtain ⟨a, u, here, there⟩ := bind_ok_iff.mp inside
  have first := first d a _ (onBuilder_ok_iff.mpr ⟨u, here, rfl⟩)
  exact first.trans (rest a { d with builder := u } b _ (onBuilder_ok_iff.mpr ⟨c, there, rfl⟩))

end

/-! ### Inputs and commands -/

theorem acts_pureInput (value : PureValue) : Acts P [] (pureInput value) :=
  acts_onBuilder (.pure value) trivial rfl

theorem acts_append (c : Command) : Acts P [] (append c) :=
  acts_onBuilder (.command c) trivial rfl

theorem acts_makeMoveVec (type : Option TypeTag) (elements : List Argument) :
    Acts P [] (onBuilder (Builder.makeMoveVec type elements)) :=
  acts_onBuilder (.makeMoveVec type elements) trivial rfl

theorem acts_lowerObject (value : CallValue) (p : Parameter) :
    Acts P (value.accesses p) (lowerObject value p) :=
  fun _ a t run => (Act.lower value p a t run).evolves

theorem acts_lowerObjects (values : List CallValue) :
    Acts P (values.flatMap (CallValue.accesses none)) (lowerObjects values) :=
  acts_mapM (fun value => acts_lowerObject value none) values

/-! ### Lowering and calling -/

theorem acts_lowerSeq (items : List CallValue) (element : Parameter) :
    Acts P (if (CallValue.asPureList? items element).isSome then []
      else items.flatMap (CallValue.accesses element)) (lowerSeq items element) := by
  unfold lowerSeq
  cases CallValue.asPureList? items element with
  | some values =>
    simp only [Option.isSome_some, if_true]
    split
    · exact acts_throw _
    · split
      · exact acts_throw _
      · exact acts_pureInput _
  | none =>
    simp only [Option.isSome_none, Bool.false_eq_true, if_false]
    split
    · apply acts_then (acts_mapM (fun item => acts_lowerObject item element) items)
      intro elements
      exact acts_makeMoveVec _ elements
    · exact acts_throw _

theorem acts_lower (value : CallValue) (p : Parameter) :
    Acts P (value.loweredAccesses p) (lower value p) := by
  unfold lower
  split
  · exact acts_pure _
  · split
    · exact acts_throw _
    · exact acts_pureInput _
  · unfold CallValue.loweredAccesses
    simp only
    split
    · exact acts_lowerObject _ p
    · exact acts_pureInput _
  · split
    · exact acts_throw _
    · exact acts_lowerObject _ p
  · split
    · exact acts_throw _
    · exact acts_lowerObject _ p
  · split
    · exact acts_throw _
    · exact acts_lowerObject _ p
  · exact acts_lowerSeq _ _
  · exact acts_pureInput _
  · split
    · exact acts_pureInput _
    · exact acts_throw _

theorem acts_receiveLast (handles : List Argument) : Acts P [] (receiveLast handles) := by
  unfold receiveLast
  split
  · exact acts_onBuilder (.markReceiving _) trivial rfl
  · exact acts_pure _

theorem acts_call (target : CallTarget) (f : MoveFunction) (values : List CallValue)
    (typeArguments : List TypeTag) :
    Acts P (f.accesses values) (call target f values typeArguments) := by
  unfold call
  refine acts_then (acts_mapM (fun (value, t) => acts_lower value (some t)) _) ?_
  intro handles
  have finish : Acts P [] (do
      let result ← append (.moveCall ⟨target.package, target.module, target.function, typeArguments,
        handles⟩)
      return result.returned f.returns.length) :=
    acts_then (acts_append _) fun result => acts_pure _
  split
  · exact acts_then (acts_receiveLast handles) fun _ => finish
  · exact finish

theorem acts_callDirectly (target : CallTarget) (typeArguments : List TypeTag)
    (handles : List Argument) : Acts P [] (callDirectly target typeArguments handles) :=
  acts_append _

theorem acts_publicTransfer (object : CallValue) (recipient : Address) (type : TypeTag) :
    Acts P (object.accesses none) (publicTransfer object recipient type) :=
  acts_then (acts_lowerObject object none) fun _ =>
    acts_then (acts_pureInput _) fun _ => acts_callDirectly _ _ _

theorem acts_optionalObject (object : Option CallValue) (type : TypeTag) :
    Acts P (object.toList.flatMap (CallValue.accesses none)) (optionalObject object type) := by
  cases object with
  | none => exact acts_callDirectly _ _ _
  | some object =>
    exact acts_bind (acts_lowerObject object none) fun _ => acts_callDirectly _ _ _

/-! ### Coins -/

theorem acts_split (coin : CallValue) (amounts : List UInt64) :
    Acts P (coin.accesses none) (split coin amounts) :=
  acts_then (acts_lowerObject coin none) fun _ =>
    acts_then (acts_mapM_plain (fun _ => acts_pureInput _) amounts) fun _ => acts_append _

theorem acts_splitCoin (coin : CallValue) (amounts : List UInt64) :
    Acts P (coin.accesses none) (splitCoin coin amounts) :=
  acts_then (acts_split coin amounts) fun _ => acts_pure _

theorem acts_mergeCoins (destination : CallValue) (sources : List CallValue) :
    Acts P (destination.accesses none ++ sources.flatMap (CallValue.accesses none))
      (mergeCoins destination sources) :=
  acts_bind (acts_lowerObject destination none) fun _ =>
    acts_then (acts_lowerObjects sources) fun _ => acts_append _

theorem acts_transferObjects (objects : List CallValue) (recipient : Address) :
    Acts P (objects.flatMap (CallValue.accesses none)) (transferObjects objects recipient) :=
  acts_then (acts_lowerObjects objects) fun _ =>
    acts_then (acts_pureInput _) fun _ => acts_append _

theorem acts_moveVec (type : Option TypeTag) (items : List CallValue) :
    Acts P (items.flatMap (CallValue.loweredAccesses none)) (makeMoveVec type items) :=
  acts_then (acts_mapM (fun item => acts_lower item none) items) fun elements =>
    acts_makeMoveVec type elements

theorem acts_splitCoinEqual (coin : CallValue) (count : UInt64) (type : TypeTag) :
    Acts P (coin.accesses none) (splitCoinEqual coin count type) :=
  acts_then (acts_lowerObject coin none) fun _ =>
    acts_then (acts_pureInput _) fun _ => acts_callDirectly _ _ _

theorem acts_sourceCoin (coin : Option CallValue) :
    Acts P (coin.toList.flatMap (CallValue.accesses none)) (sourceCoin coin) := by
  cases coin with
  | none => exact acts_pure _
  | some coin =>
    rw [Option.toList_some, List.flatMap_singleton]
    exact acts_lowerObject coin none

theorem acts_partOf (coin : Argument) (amount : Option UInt64) : Acts P [] (partOf coin amount) := by
  cases amount with
  | none => exact acts_pure _
  | some amount => exact acts_then (acts_split (.argument coin) _) fun _ => acts_pure _

theorem acts_transferSui (recipient : Address) (source : Option CallValue) (amount : Option UInt64) :
    Acts P (source.toList.flatMap (CallValue.accesses none)) (transferSui recipient source amount) :=
  acts_then (acts_sourceCoin source) fun coin => acts_then (acts_partOf coin amount) fun _ =>
    acts_then (acts_pureInput _) fun _ => acts_append _

theorem acts_mergeIntoFirst (coins : List CallValue) :
    Acts P (coins.flatMap (CallValue.accesses none)) (mergeIntoFirst coins) := by
  apply acts_then (acts_lowerObjects coins)
  intro handles
  split
  · exact acts_pure _
  · exact acts_pure _
  · exact acts_then (acts_append _) fun _ => acts_pure _

theorem acts_sendEach (result : Argument) (index : Nat) (recipients : List Address) :
    Acts P [] (sendEach result index recipients) := by
  induction recipients generalizing index with
  | nil => exact acts_pure _
  | cons recipient rest ih =>
    exact acts_then (acts_pureInput _) fun _ => acts_then (acts_append _) fun _ => ih (index + 1)

theorem acts_paySui (recipients : List Address) (amounts : List UInt64) (coins : List CallValue) :
    Acts P (coins.flatMap (CallValue.accesses none)) (paySui recipients amounts coins) :=
  acts_then (acts_mergeIntoFirst coins) fun coin =>
    acts_then (acts_split (.argument coin) amounts) fun result =>
      acts_then (acts_sendEach result 0 recipients) fun _ => acts_pure result

theorem acts_payAllSui (recipient : Address) (coins : List CallValue) :
    Acts P (coins.flatMap (CallValue.accesses none)) (payAllSui recipient coins) := by
  have send : Acts P [] (do
      let recipient ← addressInput recipient
      append (.transferObjects [.gasCoin] recipient)) :=
    acts_then (acts_pureInput _) fun _ => acts_append _
  unfold payAllSui
  split
  · exact acts_then (acts_lowerObjects coins) fun _ => acts_then (acts_append _) fun _ => send
  · rename_i empty
    obtain rfl : coins = [] := by simpa using empty
    exact send

theorem acts_stake (coins : List CallValue) (validator : Address) (amount : Option UInt64) :
    Acts P (systemState.accesses none ++ coins.flatMap (CallValue.accesses none))
      (stake coins validator amount) :=
  acts_bind (acts_lowerObject _ none) fun _ => acts_then (acts_lowerObjects coins) fun _ =>
    acts_then (acts_makeMoveVec _ _) fun _ => acts_then (acts_pureInput _) fun _ =>
      acts_then (acts_pureInput _) fun _ => acts_callDirectly _ _ _

theorem acts_unstake (staked : CallValue) :
    Acts P (systemState.accesses none ++ staked.accesses none) (unstake staked) :=
  acts_bind (acts_lowerObject _ none) fun _ => acts_then (acts_lowerObject staked none) fun _ =>
    acts_callDirectly _ _ _

/-! ### Packages -/

theorem acts_publish (p : CompiledPackage) : Acts P [] (publish p) :=
  acts_append _

/-- An upgrade acts on the draft as far as its protocol does. -/
theorem acts_upgrade {protocol : UpgradeProtocol}
    (authorizes : ∀ cap digest, Acts P [] (onBuilder (protocol.authorize cap digest)))
    (commits : ∀ cap receipt, Acts P [] (onBuilder (protocol.commit cap receipt)))
    (p : CompiledPackage) (id : Address) (cap : CallValue) :
    Acts P (cap.accesses none) (upgrade protocol p id cap) :=
  acts_then (acts_lowerObject cap none) fun _ => acts_then (authorizes _ _) fun _ =>
    acts_then (acts_append _) fun _ => commits _ _

theorem acts_moveCall (package : Address) (module function : Identifier)
    (typeArguments : List TypeTag) (arguments : List Argument) :
    Acts P [] (onBuilder (Builder.moveCall package module function typeArguments arguments)) :=
  acts_onBuilder (.moveCall package module function typeArguments arguments) trivial rfl

theorem acts_frameworkUpgrade (p : CompiledPackage) (id : Address) (cap : CallValue) :
    Acts P (cap.accesses none) (upgrade .framework p id cap) := by
  apply acts_upgrade
  · intro cap digest
    exact acts_onBuilder_bind (acts_pureInput _) fun _ =>
      acts_onBuilder_bind (acts_pureInput _) fun _ => acts_moveCall _ _ _ _ _
  · intro cap receipt
    exact acts_moveCall _ _ _ _ _

theorem acts_custom {x : BuilderStep Argument} (own : P x) : Acts P [] (onBuilder x) := by
  intro d a t run
  obtain ⟨b, inside, rfl⟩ := onBuilder_ok_iff.mp run
  exact (Act.custom x own a b inside).evolves

/-! ### What stays -/

/-- A value that names an object is admitted by its id or by its reference. A handle stays as it is. -/
theorem lowerObject_ok {value : CallValue} {p : Parameter} {d t : Draft} {a : Argument}
    (run : lowerObject value p d = .ok a t) :
    t = d ∨ ∃ op : BuilderOp, op.step d.builder = .ok (.handle a) t.builder := by
  unfold lowerObject at run
  split at run
  · exact Or.inl (pure_ok_iff.mp run).2.symm
  · rw [noteUse_bind] at run
    obtain ⟨b, inside, rfl⟩ := onBuilder_ok_iff.mp run
    exact Or.inr ⟨.objectId _, map_of_ok inside⟩
  · rw [noteUse_bind] at run
    obtain ⟨b, inside, rfl⟩ := onBuilder_ok_iff.mp run
    exact Or.inr ⟨.objectId _, map_of_ok inside⟩
  · obtain ⟨b, inside, rfl⟩ := onBuilder_ok_iff.mp run
    exact Or.inr ⟨.object _, map_of_ok inside⟩
  · rw [noteUse_bind] at run
    obtain ⟨b, inside, rfl⟩ := onBuilder_ok_iff.mp run
    exact Or.inr ⟨.object _, map_of_ok inside⟩
  · exact (throw_ok_iff.mp run).elim

theorem Act.reachable {d t : Draft} {us : List Access} (act : Act BuilderStep.Sealed d us t)
    (h : d.builder.Reachable) : t.builder.Reachable := by
  cases act with
  | lower value p a t run =>
    rcases lowerObject_ok run with rfl | ⟨op, inside⟩
    · exact h
    · have next : op.next d.builder = t.builder := congrArg after inside
      exact next ▸ h.next op
  | build op plain answer b run =>
    have next : op.next d.builder = b := congrArg after run
    exact next ▸ h.next op
  | custom x isSealed a b run => exact isSealed _ _ _ h run

theorem Evolves.reachable {d t : Draft} {us : List Access}
    (evolves : Evolves BuilderStep.Sealed d us t) (h : d.builder.Reachable) : t.builder.Reachable := by
  induction evolves with
  | refl => exact h
  | tail _ act ih => exact act.reachable ih

end Draft

end MoveTx
