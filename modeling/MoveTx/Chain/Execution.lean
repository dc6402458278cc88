import MoveTx.Chain.Object

/-!
# Running transactions on the chain

What the chain says about a transaction that ran, or that was tried without being kept.
-/

namespace MoveTx

structure GasCost where
  computation : UInt64
  storage : UInt64
  storageRebate : UInt64
  nonRefundableStorageFee : UInt64
  deriving DecidableEq

namespace GasCost

/-- The charge before rebates, which a budget must cover. It stops at the greatest number. -/
def total (c : GasCost) : UInt64 :=
  UInt64.ofNat (min (c.computation.toNat + c.storage.toNat) (UInt64.size - 1))

/-- The charge after the rebate. -/
def net (c : GasCost) : Int :=
  c.total.toNat - c.storageRebate.toNat

end GasCost

inductive ExecutionStatus
  | success
  | failure (error : String)
  deriving DecidableEq

structure Effects where
  status : ExecutionStatus
  gasUsed : GasCost
  transactionDigest : Digest
  created : List ObjectRef
  mutated : List ObjectRef
  deleted : List ObjectRef
  deriving DecidableEq

def Effects.isSuccess (e : Effects) : Bool :=
  e.status == .success

structure DryRun where
  effects : Effects
  deriving DecidableEq

/-- How long the chain waits before it answers. -/
inductive WaitFor
  | effectsCertificate
  | localExecution
  deriving DecidableEq

/-- What a request to run a transaction wants to know. -/
structure ExecuteOptions where
  showInput : Bool := false
  showRawInput : Bool := false
  showEffects : Bool := true
  showEvents : Bool := false
  showObjectChanges : Bool := false
  showBalanceChanges : Bool := false
  waitFor : WaitFor := .localExecution
  deriving DecidableEq

structure ExecutionResult where
  digest : Digest
  effects : Option Effects
  confirmedLocally : Option Bool
  deriving DecidableEq

/-- The effects, if they are there and good. -/
def ExecutionResult.check (r : ExecutionResult) : Except ChainError Effects :=
  match r.effects with
  | none => .error (.undecodable (.noEffects r.digest))
  | some effects =>
    match effects.status with
    | .success => .ok effects
    | .failure error => .error (.execution (.failed error))

/-! ### JSON forms -/

instance : JsonForm GasCost where
  toJson c := .ofFields [("computationCost", toJson c.computation), ("storageCost", toJson c.storage),
    ("storageRebate", toJson c.storageRebate),
    ("nonRefundableStorageFee", toJson c.nonRefundableStorageFee)]
  ofJson? levels j := do
    let f ← j.fields? ["computationCost", "storageCost", "storageRebate", "nonRefundableStorageFee"]
      levels
    return ⟨← f.required "computationCost", ← f.required "storageCost", ← f.required "storageRebate",
      ← f.withDefault "nonRefundableStorageFee" 0⟩

namespace ExecutionStatus

/-- The status of a name, with the fields of a failure. -/
def ofTag? (tag : String) (fields : Json) : Option ExecutionStatus :=
  match tag with
  | "success" => some success
  | "failure" => do
    let f ← fields.fields? ["error"] 1
    failure <$> f.required "error"
  | _ => none

/-- Reads a status, whose name stands among its fields. All of them are held until it is known. -/
def ofJsonAt? (levels : Nat) (j : Json) : Option ExecutionStatus :=
  if j.isHoldable && j.depth ≤ levels then
    match j with
    | .object entries =>
      match entries.filter fun entry => entry.1 == some "status" with
      | [(_, tag)] => do
        ofTag? (← tag.string?) (.object (entries.filter fun entry => entry.1 != some "status"))
      | _ => none
    | .array (tag :: rest) => do ofTag? (← tag.string?) (.array rest)
    | _ => none
  else none

instance : JsonForm ExecutionStatus where
  toJson
    | success => .ofFields [("status", .ofString "success")]
    | failure error => .ofFields [("status", .ofString "failure"), ("error", toJson error)]
  ofJson? := ofJsonAt?

end ExecutionStatus

instance : JsonForm Effects where
  toJson e := .ofFields [("status", toJson e.status), ("gasUsed", toJson e.gasUsed),
    ("transactionDigest", toJson e.transactionDigest), ("created", toJson e.created),
    ("mutated", toJson e.mutated), ("deleted", toJson e.deleted)]
  ofJson? levels j := do
    let f ← j.fields? ["status", "gasUsed", "transactionDigest", "created", "mutated", "deleted"] levels
    return ⟨← f.required "status", ← f.required "gasUsed", ← f.required "transactionDigest",
      ← f.withDefault "created" [], ← f.withDefault "mutated" [], ← f.withDefault "deleted" []⟩

instance : JsonForm DryRun where
  toJson r := .ofFields [("effects", toJson r.effects)]
  ofJson? levels j := do
    let f ← j.fields? ["effects"] levels
    return ⟨← f.required "effects"⟩

/-- The names of the ways to wait in requests. -/
def WaitFor.names : List (String × WaitFor) :=
  [("WaitForEffectsCert", .effectsCertificate), ("WaitForLocalExecution", .localExecution)]

instance : JsonForm WaitFor where
  toJson
    | .effectsCertificate => .ofString "WaitForEffectsCert"
    | .localExecution => .ofString "WaitForLocalExecution"
  ofJson? levels j := j.unitVariant? WaitFor.names levels

/-- How long to wait is no part of the form. -/
instance : JsonForm ExecuteOptions where
  toJson o := .ofFields [("showInput", toJson o.showInput), ("showRawInput", toJson o.showRawInput),
    ("showEffects", toJson o.showEffects), ("showEvents", toJson o.showEvents),
    ("showObjectChanges", toJson o.showObjectChanges),
    ("showBalanceChanges", toJson o.showBalanceChanges)]
  ofJson? levels j := do
    let f ← j.fields? ["showInput", "showRawInput", "showEffects", "showEvents", "showObjectChanges",
      "showBalanceChanges"] levels
    return {
      showInput := ← f.required "showInput"
      showRawInput := ← f.required "showRawInput"
      showEffects := ← f.required "showEffects"
      showEvents := ← f.required "showEvents"
      showObjectChanges := ← f.required "showObjectChanges"
      showBalanceChanges := ← f.required "showBalanceChanges" }

instance : JsonForm ExecutionResult where
  toJson r := .ofFields ([("digest", toJson r.digest)] ++ Json.optionalField "effects" r.effects ++
    Json.optionalField "confirmedLocalExecution" r.confirmedLocally)
  ofJson? levels j := do
    let f ← j.fields? ["digest", "effects", "confirmedLocalExecution"] levels
    return ⟨← f.required "digest", ← f.withDefault "effects" none,
      ← f.withDefault "confirmedLocalExecution" none⟩

end MoveTx
