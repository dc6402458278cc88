import MoveTx.Chain.Coin
import MoveTx.Chain.Execution
import MoveTx.Chain.MoveFunction
import MoveTx.Proofs.Json.Form

/-!
# Answers of the chain as JSON

What the chain says about objects, coins, functions and transactions has lawful JSON forms. A field may be
left out where it is empty, a status may stand behind what it is the status of, and types may be nested to
any depth.
-/

namespace MoveTx
open Json

/-! ### Fields that may be left out -/

namespace Json

variable {α : Type} [JsonForm α] {name : String} {o : Option α}

@[simp]
theorem mem_optionalField {field : String × Json} :
    field ∈ optionalField name o ↔ ∃ a, o = some a ∧ field = (name, toJson a) := by
  cases o <;> simp [optionalField]

theorem names_optionalField (name : String) (o : Option α) :
    ((optionalField name o).map (·.1)).Sublist [name] := by
  cases o with
  | none => exact List.nil_sublist _
  | some a => exact .refl _

/-- A field that was left out is read as nothing. -/
theorem Fields.Hold.withDefault_none [NonNullForm α] [LawfulJsonForm α] {f : Fields}
    {fields : List (String × Json)} (held : f.Hold fields)
    (there : ∀ a, o = some a → (name, toJson a) ∈ fields)
    (missing : o = none → name ∉ fields.map (·.1)) : f.withDefault name none = some o := by
  cases o with
  | none => rw [Fields.withDefault, held.missing name (missing rfl)]
  | some a => exact held.withDefault (a := some a) (there a rfl) none

theorem optionalField_isHoldable [HoldableForm α] :
    (optionalField name o).all (fun field => field.2.isHoldable) = true := by
  cases o with
  | none => rfl
  | some a => rw [optionalField, List.all_cons, HoldableForm.isHoldable a, List.all_nil]; rfl

end Json

/-! ### Objects -/

instance : LawfulJsonForm ObjectRef where
  reads r j levels same few := by
    refine fields?_bind same few (.refl _) (by decide) fun f _ held => ?_
    rw [held.required (a := r.id) (by simp), held.required (a := r.version) (by simp),
      held.required (a := r.digest) (by simp)]
    rfl

instance : LawfulJsonForm Owner where
  reads owner j levels same few := by
    cases owner with
    | account address =>
      refine variant?_bind same few fun content _ _ inside shallow => ?_
      exact map_ofJson?_of_reordered inside shallow Owner.account
    | object id =>
      refine variant?_bind same few fun content _ _ inside shallow => ?_
      exact map_ofJson?_of_reordered inside shallow Owner.object
    | shared initialVersion =>
      refine variant?_bind same few fun content _ _ inside shallow => ?_
      refine fields?_bind inside shallow (.refl _) (by decide) fun f _ held => ?_
      rw [held.required (a := initialVersion) (by simp)]
      rfl
    | immutable =>
      rw [same.eq_ofString]
      rfl

instance : LawfulJsonForm LiveObject where
  reads o j levels same few := by
    have names := (List.Sublist.refl ["objectId", "version", "digest"]).append
      ((names_optionalField "type" o.type).append ((List.Sublist.refl ["owner"]).append
        (names_optionalField "previousTransaction" o.previousTransaction)))
    refine fields?_bind same few (by simpa using names) (by decide) fun f _ held => ?_
    rw [held.required (a := o.id) (by simp), held.required (a := o.version) (by simp),
      held.required (a := o.digest) (by simp), held.required (a := o.owner) (by simp),
      held.withDefault_none (o := o.type) (by simp +contextual) (by simp +contextual),
      held.withDefault_none (o := o.previousTransaction) (by simp +contextual) (by simp +contextual)]
    rfl

instance : HoldableForm ObjectRef where
  isHoldable r := by
    change (ofFields _).isHoldable = true
    simp [isHoldable_ofFields, HoldableForm.isHoldable]

instance : HoldableForm Owner where
  isHoldable
    | .account address | .object address => by
      change (ofFields _).isHoldable = true
      simp [isHoldable_ofFields, HoldableForm.isHoldable]
    | .shared initialVersion => by
      change (ofFields _).isHoldable = true
      simp [isHoldable_ofFields, HoldableForm.isHoldable]
    | .immutable => rfl

instance : HoldableForm LiveObject where
  isHoldable o := by
    change (ofFields _).isHoldable = true
    simp [isHoldable_ofFields, HoldableForm.isHoldable, optionalField_isHoldable]

namespace ObjectStatus

/-- The details may stand before the status that says how to read them. -/
theorem details_isHoldable (s : ObjectStatus) : s.details.isHoldable = true := by
  cases s with
  | live o => exact HoldableForm.isHoldable o
  | missing id => exact HoldableForm.isHoldable id
  | deleted r => exact HoldableForm.isHoldable r
  | tooNew id asked latest => simp [details, isHoldable_ofFields, HoldableForm.isHoldable]
  | noVersion id version => simp [details, isHoldable_ofFields, HoldableForm.isHoldable]

theorem ofDetails?_of_reordered {s : ObjectStatus} {j : Json} {levels : Nat}
    (same : Reordered s.details j) (few : j.depth ≤ levels) : ofDetails? s.name levels j = some s := by
  cases s with
  | live o => exact map_ofJson?_of_reordered same few live
  | missing id => exact map_ofJson?_of_reordered same few missing
  | deleted r => exact map_ofJson?_of_reordered same few deleted
  | tooNew id asked latest =>
    refine fields?_bind same few (.refl _) (by decide) fun f _ held => ?_
    rw [held.required (a := id) (by simp), held.required (a := asked) (by simp),
      held.optional (o := latest) (by simp)]
    rfl
  | noVersion id version =>
    refine fields?_bind same few (.refl _) (by decide) fun f _ held => ?_
    rw [held.required (a := id) (by simp), held.required (a := version) (by simp)]
    rfl

instance : LawfulJsonForm ObjectStatus where
  reads s j levels same few := by
    refine fields?_bind same few (.refl _) (by decide) fun f _ held => ?_
    obtain ⟨status, shown, same, -⟩ := held.there "status" (.ofString s.name) (by simp)
    obtain ⟨details, found, inside, shallow⟩ := held.there "details" s.details (by simp)
    obtain rfl := same.eq_ofString
    have holds : canHold f details = true := by
      rw [canHold, ← inside.isHoldable_eq, s.details_isHoldable, decide_eq_true shallow]
      exact Bool.or_true _
    rw [shown, found]
    change (if (true && canHold f details) = true then ofDetails? s.name f.levels details else none) = _
    rw [holds]
    exact ofDetails?_of_reordered inside shallow

end ObjectStatus

/-! ### Coins -/

instance : LawfulJsonForm Coin where
  reads c j levels same few := by
    have names := (List.Sublist.refl ["coinType", "coinObjectId", "version", "digest", "balance"]).append
      (names_optionalField "previousTransaction" c.previousTransaction)
    refine fields?_bind same few (by simpa using names) (by decide) fun f _ held => ?_
    rw [held.required (a := c.type) (by simp), held.required (a := c.id) (by simp),
      held.required (a := c.version) (by simp), held.required (a := c.digest) (by simp),
      held.required (a := c.balance) (by simp),
      held.withDefault_none (o := c.previousTransaction) (by simp +contextual) (by simp +contextual)]
    rfl

instance : LawfulJsonForm CoinPage where
  reads p j levels same few := by
    refine fields?_bind same few (.refl _) (by decide) fun f _ held => ?_
    rw [held.required (a := p.coins) (by simp), held.optional (o := p.nextCursor) (by simp),
      held.required (a := p.hasNext) (by simp)]
    rfl

/-! ### Transactions -/

instance : LawfulJsonForm GasCost where
  reads c j levels same few := by
    refine fields?_bind same few (.refl _) (by decide) fun f _ held => ?_
    rw [held.required (a := c.computation) (by simp), held.required (a := c.storage) (by simp),
      held.required (a := c.storageRebate) (by simp),
      held.withDefault (a := c.nonRefundableStorageFee) (by simp)]
    rfl

namespace ExecutionStatus

theorem ofTag?_failure (error : String) :
    ofTag? "failure" (.ofFields [("error", toJson error)]) = some (failure error) := by
  refine fields?_bind (.refl _) (Nat.le_refl 1) (.refl _) (by decide) fun f _ held => ?_
  exact congrArg (Option.map failure) (held.required (by simp))

instance : LawfulJsonForm ExecutionStatus where
  reads s j levels same few := by
    have holds : (j.isHoldable && decide (j.depth ≤ levels)) = true := by
      rw [← same.isHoldable_eq, decide_eq_true few]
      cases s <;> rfl
    change (if _ then _ else none) = some s
    rw [if_pos holds]
    cases s with
    | success =>
      obtain ⟨tag, rfl, inside⟩ := same.exists_ofVariant
      rw [inside.eq_ofString]
      rfl
    | failure error =>
      obtain ⟨fields, rfl, reordered⟩ := same.exists_fields
      have apart : "status" ≠ "error" := by decide
      obtain ⟨tag, text, sameTag, sameText, orders⟩ := reordered.eq_or_eq_swap apart
      obtain rfl := sameTag.eq_ofString
      obtain rfl := sameText.eq_ofString
      rcases orders with rfl | rfl
      · exact ofTag?_failure error
      · exact ofTag?_failure error

end ExecutionStatus

instance : LawfulJsonForm Effects where
  reads e j levels same few := by
    refine fields?_bind same few (.refl _) (by decide) fun f _ held => ?_
    rw [held.required (a := e.status) (by simp), held.required (a := e.gasUsed) (by simp),
      held.required (a := e.transactionDigest) (by simp), held.withDefault (a := e.created) (by simp),
      held.withDefault (a := e.mutated) (by simp), held.withDefault (a := e.deleted) (by simp)]
    rfl

instance : NonNullForm Effects := ⟨nofun⟩

instance : LawfulJsonForm DryRun where
  reads r j levels same few := by
    refine fields?_bind same few (.refl _) (by decide) fun f _ held => ?_
    rw [held.required (a := r.effects) (by simp)]
    rfl

instance : LawfulJsonForm ExecutionResult where
  reads r j levels same few := by
    have names := (List.Sublist.refl ["digest"]).append
      ((names_optionalField "effects" r.effects).append
        (names_optionalField "confirmedLocalExecution" r.confirmedLocally))
    refine fields?_bind same few (by simpa using names) (by decide) fun f _ held => ?_
    rw [held.required (a := r.digest) (by simp),
      held.withDefault_none (o := r.effects) (by simp +contextual) (by simp +contextual),
      held.withDefault_none (o := r.confirmedLocally) (by simp +contextual) (by simp +contextual)]
    rfl

/-! ### Functions -/

namespace MoveType

/-- The fields of a struct are read where its arguments are. -/
theorem structOfJson?_of_reordered {a : Address} {m n : String} {ts : List MoveType}
    {arguments : List Json} {argument : (levels : Nat) → Json → Option MoveType} {j : Json} {levels : Nat}
    (same : Reordered (structJson a m n arguments) j) (few : j.depth ≤ levels)
    (reads : ∀ l < levels, ∀ items, ReorderedItems arguments items → (∀ k ∈ items, k.depth ≤ l) →
      items.mapM (argument l) = some ts) : structOfJson? argument levels j = some ⟨a, m, n, ts⟩ := by
  refine fields?_bind same few (.refl _) (by decide) fun f below held => ?_
  obtain ⟨items, found, same, shallow⟩ := held.there "typeArguments" (.array arguments) (by simp)
  obtain ⟨items', there, each, deep⟩ := exists_items? same shallow
  have read := reads (f.levels - 1) (Nat.lt_of_le_of_lt (Nat.sub_le _ _) below) items' each deep
  rw [found, held.required (a := a) (by simp), held.required (a := m) (by simp),
    held.required (a := n) (by simp)]
  simp only [there, read, Option.bind_eq_bind, Option.bind_some]
  rfl

mutual

/-- Every type is read with more fuel than there are levels. -/
theorem ofLevels?_of_reordered : (t : MoveType) → ∀ (j : Json) (levels fuel : Nat),
    Reordered t.json j → j.depth ≤ levels → levels < fuel → ofLevels? fuel levels j = some t
  | .bool | .u8 | .u16 | .u32 | .u64 | .u128 | .u256 | .address | .signer => by
    intro j levels fuel same few enough
    obtain ⟨fuel, rfl⟩ := Nat.exists_eq_add_one_of_ne_zero (Nat.ne_zero_of_lt enough)
    rw [same.eq_ofString]
    rfl
  | .typeParameter index => by
    intro j levels fuel same few enough
    obtain ⟨fuel, rfl⟩ := Nat.exists_eq_add_one_of_ne_zero (Nat.ne_zero_of_lt enough)
    refine variant?_bind same few fun content _ _ inside shallow => ?_
    exact map_ofJson?_of_reordered inside shallow typeParameter
  | .struct a m n ts => by
    intro j levels fuel same few enough
    obtain ⟨fuel, rfl⟩ := Nat.exists_eq_add_one_of_ne_zero (Nat.ne_zero_of_lt enough)
    refine variant?_bind same few fun content inner less inside shallow => ?_
    have read := structOfJson?_of_reordered inside shallow fun l below items each shallow =>
      mapM_ofLevels? ts items l fuel each shallow (by omega)
    exact congrArg (Option.bind · fun s => some (struct s.address s.module s.name s.arguments)) read
  | .vector t => by
    intro j levels fuel same few enough
    obtain ⟨fuel, rfl⟩ := Nat.exists_eq_add_one_of_ne_zero (Nat.ne_zero_of_lt enough)
    refine variant?_bind same few fun content inner less inside shallow => ?_
    have read := ofLevels?_of_reordered t content inner fuel inside shallow (by omega)
    exact congrArg (Option.map vector) read
  | .reference t => by
    intro j levels fuel same few enough
    obtain ⟨fuel, rfl⟩ := Nat.exists_eq_add_one_of_ne_zero (Nat.ne_zero_of_lt enough)
    refine variant?_bind same few fun content inner less inside shallow => ?_
    have read := ofLevels?_of_reordered t content inner fuel inside shallow (by omega)
    exact congrArg (Option.map reference) read
  | .mutableReference t => by
    intro j levels fuel same few enough
    obtain ⟨fuel, rfl⟩ := Nat.exists_eq_add_one_of_ne_zero (Nat.ne_zero_of_lt enough)
    refine variant?_bind same few fun content inner less inside shallow => ?_
    have read := ofLevels?_of_reordered t content inner fuel inside shallow (by omega)
    exact congrArg (Option.map mutableReference) read

theorem mapM_ofLevels? : (ts : List MoveType) → ∀ (items : List Json) (levels fuel : Nat),
    ReorderedItems (jsonList ts) items → (∀ k ∈ items, k.depth ≤ levels) → levels < fuel →
      items.mapM (ofLevels? fuel levels) = some ts
  | [] => by
    intro items levels fuel each shallow enough
    cases each
    rfl
  | t :: ts => by
    intro items levels fuel each shallow enough
    cases each with
    | cons first others =>
      obtain ⟨here, later⟩ := List.forall_mem_cons.mp shallow
      rw [List.mapM_cons, ofLevels?_of_reordered t _ levels fuel first here enough,
        mapM_ofLevels? ts _ levels fuel others later enough]
      rfl

end

instance : LawfulJsonForm MoveType where
  reads t j levels same few :=
    ofLevels?_of_reordered t j levels (levels + 1) same few (Nat.lt_succ_self levels)

end MoveType

instance : LawfulJsonForm MoveStruct where
  reads _ _ _ same few :=
    MoveType.structOfJson?_of_reordered same few fun _ _ _ each shallow =>
      mapM_of_reordered each fun _ _ k inside same => ofJson?_of_reordered same (shallow k inside)

instance : LawfulJsonForm Visibility where
  reads v j levels same _ := by
    cases v <;> rw [same.eq_ofString] <;> rfl

instance : LawfulJsonForm MoveFunction where
  reads g j levels same few := by
    refine fields?_bind same few (.refl _) (by decide) fun f _ held => ?_
    rw [held.required (a := g.visibility) (by simp), held.required (a := g.isEntry) (by simp),
      held.withDefault (a := g.typeParameters) (by simp), held.required (a := g.parameters) (by simp),
      held.withDefault (a := g.returns) (by simp)]
    rfl

/-! ### All answers -/

/-- What is written for an answer of the chain is read as that answer, in whatever order the entries of
objects are kept, and never as another one. -/
theorem answers_readBack :
    ReadsBack Owner ∧ ReadsBack LiveObject ∧ ReadsBack ObjectStatus ∧ ReadsBack Coin ∧
      ReadsBack CoinPage ∧ ReadsBack MoveType ∧ ReadsBack MoveStruct ∧ ReadsBack MoveFunction ∧
      ReadsBack GasCost ∧ ReadsBack ExecutionStatus ∧ ReadsBack Effects ∧ ReadsBack DryRun ∧
      ReadsBack ExecutionResult :=
  ⟨readsBack, readsBack, readsBack, readsBack, readsBack, readsBack, readsBack, readsBack, readsBack,
    readsBack, readsBack, readsBack, readsBack⟩

/-- Where entries are sorted by their names, the details come before the status. -/
theorem sorted_status_readBack :
    decode? (.ofFields [("details", .ofFields [("askedVersion", toJson (9 : UInt64)),
      ("latestVersion", .null), ("objectId", toJson Address.clock)]),
      ("status", .ofString "VersionTooHigh")]) = some (ObjectStatus.tooNew .clock 9 none) := by
  obtain ⟨-, -, statuses, -⟩ := answers_readBack
  have details : List.Perm ([(some "objectId", toJson Address.clock)] ++
      [(some "askedVersion", toJson (9 : UInt64)), (some "latestVersion", .null)]) _ :=
    List.perm_append_comm
  exact ((statuses (.tooNew .clock 9 none)).2 _ (.object (.cons (.refl _)
    (.cons (.object (.refl _) details) .nil)) (.swap _ _ _))).1

end MoveTx
