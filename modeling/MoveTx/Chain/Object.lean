import MoveTx.Chain.Error
import MoveTx.Json.Form
import MoveTx.Object

/-!
# Objects on the chain

What the chain says about an object: a live object with its owner, or why there is none.
-/

namespace MoveTx

inductive Owner
  | account (address : Address)
  | object (id : Address)
  | shared (initialVersion : UInt64)
  | immutable
  deriving DecidableEq

/-- The current version of an object. -/
structure LiveObject where
  id : Address
  version : UInt64
  digest : Digest
  type : Option String
  owner : Owner
  previousTransaction : Option Digest
  deriving DecidableEq

namespace LiveObject

def ref (o : LiveObject) : ObjectRef :=
  ⟨o.id, o.version, o.digest⟩

def isShared (o : LiveObject) : Bool :=
  match o.owner with
  | .shared _ => true
  | _ => false

/-- The object as an argument. A shared one is taken mutably if that is wanted and it is none of those
that may only be read. -/
def toArg (o : LiveObject) (isMutable : Bool) : ObjectArg :=
  match o.owner with
  | .shared initialVersion => .shared ⟨o.id, initialVersion, isMutable && !o.id.isAlwaysImmutable⟩
  | _ => .owned o.ref

end LiveObject

/-- The answer to a request for an object. -/
inductive ObjectStatus
  | live (object : LiveObject)
  | missing (id : Address)
  | deleted (ref : ObjectRef)
  | tooNew (id : Address) (asked : UInt64) (latest : Option UInt64)
  | noVersion (id : Address) (version : UInt64)
  deriving DecidableEq

namespace ObjectStatus

def id : ObjectStatus → Address
  | live o => o.id
  | missing id => id
  | deleted r => r.id
  | tooNew id _ _ => id
  | noVersion id _ => id

/-- The live object, or why there is none. -/
def object : ObjectStatus → Except ChainError LiveObject
  | live o => .ok o
  | missing id => .error (.notAvailable id .missing)
  | deleted r => .error (.notAvailable r.id (.deleted r.version))
  | tooNew id asked _ => .error (.notAvailable id (.tooNew asked))
  | noVersion id version => .error (.notAvailable id (.noVersion version))

end ObjectStatus

/-- What a request for objects wants to know. -/
structure ObjectQuery where
  showType : Bool := true
  showOwner : Bool := true
  showPreviousTransaction : Bool := false
  showContent : Bool := false
  showBinary : Bool := false
  deriving DecidableEq

/-! ### JSON forms -/

/-- A field that is left out when there is nothing in it. -/
def Json.optionalField {α : Type} [JsonForm α] (name : String) : Option α → List (String × Json)
  | none => []
  | some a => [(name, toJson a)]

instance : JsonForm ObjectRef where
  toJson r := .ofFields [("objectId", toJson r.id), ("version", toJson r.version),
    ("digest", toJson r.digest)]
  ofJson? levels j := do
    let f ← j.fields? ["objectId", "version", "digest"] levels
    return ⟨← f.required "objectId", ← f.required "version", ← f.required "digest"⟩

instance : JsonForm SharedRef where
  toJson s := .ofFields [("objectId", toJson s.id), ("initialSharedVersion", toJson s.initialVersion),
    ("mutable", toJson s.isMutable)]
  ofJson? levels j := do
    let f ← j.fields? ["objectId", "initialSharedVersion", "mutable"] levels
    return ⟨← f.required "objectId", ← f.required "initialSharedVersion", ← f.required "mutable"⟩

instance : JsonForm Owner where
  toJson
    | .account address => .ofVariant "AddressOwner" (toJson address)
    | .object id => .ofVariant "ObjectOwner" (toJson id)
    | .shared initialVersion =>
      .ofVariant "Shared" (.ofFields [("initialSharedVersion", toJson initialVersion)])
    | .immutable => .ofString "Immutable"
  ofJson? levels j := do
    let v ← j.variant? levels
    match v.name with
    | "AddressOwner" => .account <$> v.value?
    | "ObjectOwner" => .object <$> v.value?
    | "Shared" =>
      let f ← (← v.content).fields? ["initialSharedVersion"] v.levels
      .shared <$> f.required "initialSharedVersion"
    | "Immutable" => if v.isUnit then return .immutable else none
    | _ => none

instance : JsonForm LiveObject where
  toJson o := .ofFields ([("objectId", toJson o.id), ("version", toJson o.version),
    ("digest", toJson o.digest)] ++ Json.optionalField "type" o.type ++ [("owner", toJson o.owner)] ++
      Json.optionalField "previousTransaction" o.previousTransaction)
  ofJson? levels j := do
    let f ← j.fields? ["objectId", "version", "digest", "type", "owner", "previousTransaction"] levels
    return {
      id := ← f.required "objectId"
      version := ← f.required "version"
      digest := ← f.required "digest"
      type := ← f.withDefault "type" none
      owner := ← f.required "owner"
      previousTransaction := ← f.withDefault "previousTransaction" none }

namespace ObjectStatus

/-- The name of the status in answers. -/
def name : ObjectStatus → String
  | live _ => "Exists"
  | missing _ => "NotExists"
  | deleted _ => "Deleted"
  | tooNew _ _ _ => "VersionTooHigh"
  | noVersion _ _ => "VersionNotFound"

/-- What stands beside the name of the status. -/
def details : ObjectStatus → Json
  | live o => toJson o
  | missing id => toJson id
  | deleted r => toJson r
  | tooNew id asked latest => .ofFields [("objectId", toJson id), ("askedVersion", toJson asked),
      ("latestVersion", toJson latest)]
  | noVersion id version => .ofFields [("objectId", toJson id), ("version", toJson version)]

/-- Reads the details under the name of a status. -/
def ofDetails? (name : String) (levels : Nat) (j : Json) : Option ObjectStatus :=
  match name with
  | "Exists" => live <$> ofJson? levels j
  | "NotExists" => missing <$> ofJson? levels j
  | "Deleted" => deleted <$> ofJson? levels j
  | "VersionTooHigh" => do
    let f ← j.fields? ["objectId", "askedVersion", "latestVersion"] levels
    return tooNew (← f.required "objectId") (← f.required "askedVersion")
      (← f.optional "latestVersion")
  | "VersionNotFound" => do
    let f ← j.fields? ["objectId", "version"] levels
    return noVersion (← f.required "objectId") (← f.required "version")
  | _ => none

/-- Whether details that stand before their status can be held back until it is known. -/
def canHold (f : Json.Fields) (details : Json) : Bool :=
  (f.values.head?.map (·.1)) ≠ some "details" || (details.isHoldable && details.depth ≤ f.levels)

instance : JsonForm ObjectStatus where
  toJson s := .ofFields [("status", .ofString s.name), ("details", s.details)]
  ofJson? levels j := do
    let f ← j.fields? ["status", "details"] levels
    let status ← (← f.get? "status").variant? f.levels
    let details ← f.get? "details"
    if status.isUnit && canHold f details then ofDetails? status.name f.levels details else none

end ObjectStatus

instance : JsonForm ObjectQuery where
  toJson q := .ofFields [("showType", toJson q.showType), ("showOwner", toJson q.showOwner),
    ("showPreviousTransaction", toJson q.showPreviousTransaction),
    ("showContent", toJson q.showContent), ("showBcs", toJson q.showBinary)]
  ofJson? levels j := do
    let f ← j.fields? ["showType", "showOwner", "showPreviousTransaction", "showContent", "showBcs"]
      levels
    return ⟨← f.required "showType", ← f.required "showOwner", ← f.required "showPreviousTransaction",
      ← f.required "showContent", ← f.required "showBcs"⟩

end MoveTx
