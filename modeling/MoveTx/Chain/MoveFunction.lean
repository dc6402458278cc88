import MoveTx.Json.Form

/-!
# Functions on the chain

The signature of a Move function, as the chain reports it. The last parameter may be the context of the
transaction, which the caller does not supply.
-/

namespace MoveTx

/-- The type of a parameter or of a returned value. -/
inductive MoveType
  | bool
  | u8
  | u16
  | u32
  | u64
  | u128
  | u256
  | address
  | signer
  | struct (address : Address) (module name : String) (arguments : List MoveType)
  | vector (element : MoveType)
  | typeParameter (index : UInt16)
  | reference (type : MoveType)
  | mutableReference (type : MoveType)

structure MoveStruct where
  address : Address
  module : String
  name : String
  arguments : List MoveType

/-- Whether this is `address::module::name`, whatever its arguments. -/
def MoveStruct.isNamed (s : MoveStruct) (address : Address) (module name : String) : Bool :=
  s.address == address && s.module == module && s.name == name

namespace MoveType

/-- The type behind all references. -/
def dereferenced : MoveType → MoveType
  | reference t | mutableReference t => dereferenced t
  | t => t

def isMutableReference : MoveType → Bool
  | mutableReference _ => true
  | _ => false

/-- The struct that a type is, if it is one. -/
def struct? : MoveType → Option MoveStruct
  | .struct a m n ts => some ⟨a, m, n, ts⟩
  | _ => none

/-- Whether the type is `address::module::name` behind its references. -/
def refersTo (t : MoveType) (address : Address) (module name : String) : Bool :=
  t.dereferenced.struct?.any fun s => s.isNamed address module name

/-- Whether the parameter is the context of the transaction. -/
def isContext (t : MoveType) : Bool :=
  t.refersTo .suiFramework "tx_context" "TxContext"

/-- Whether the parameter is an object that is to be received. -/
def isReceiving (t : MoveType) : Bool :=
  t.refersTo .suiFramework "transfer" "Receiving"

end MoveType

/-- From where a function may be called. -/
inductive Visibility
  | moduleOnly
  | everywhere
  | friends
  deriving DecidableEq

structure MoveFunction where
  visibility : Visibility
  isEntry : Bool
  /-- The abilities that each type argument must have. -/
  typeParameters : List (List String)
  parameters : List MoveType
  returns : List MoveType

namespace MoveFunction

/-- The full name of a function, by which it is looked up. -/
def fullName (package : Address) (module function : String) : String :=
  package.text ++ "::" ++ module ++ "::" ++ function

/-- The parameters without a last one for the context. -/
def userParameters (f : MoveFunction) : List MoveType :=
  match f.parameters.getLast? with
  | some t => if t.isContext then f.parameters.dropLast else f.parameters
  | none => []

/-- Whether the last argument is an object that is to be received. -/
def receivesLast (f : MoveFunction) : Bool :=
  f.userParameters.getLast?.any MoveType.isReceiving

end MoveFunction

/-! ### JSON forms -/

namespace MoveType

/-- The types that are their names. -/
def simple : List (String × MoveType) :=
  [("Bool", bool), ("U8", u8), ("U16", u16), ("U32", u32), ("U64", u64), ("U128", u128),
    ("U256", u256), ("Address", address), ("Signer", signer)]

/-- The fields of a struct with its arguments already written. -/
def structJson (a : Address) (m n : String) (arguments : List Json) : Json :=
  .ofFields [("address", toJson a), ("module", toJson m), ("name", toJson n),
    ("typeArguments", .array arguments)]

mutual

def json : MoveType → Json
  | .bool => .ofString "Bool"
  | .u8 => .ofString "U8"
  | .u16 => .ofString "U16"
  | .u32 => .ofString "U32"
  | .u64 => .ofString "U64"
  | .u128 => .ofString "U128"
  | .u256 => .ofString "U256"
  | .address => .ofString "Address"
  | .signer => .ofString "Signer"
  | .struct a m n ts => .ofVariant "Struct" (structJson a m n (jsonList ts))
  | .vector t => .ofVariant "Vector" (json t)
  | .typeParameter index => .ofVariant "TypeParameter" (toJson index)
  | .reference t => .ofVariant "Reference" (json t)
  | .mutableReference t => .ofVariant "MutableReference" (json t)

def jsonList : List MoveType → List Json
  | [] => []
  | t :: ts => json t :: jsonList ts

end

/-- Reads the fields of a struct, and its arguments by `argument`. -/
def structOfJson? (argument : (levels : Nat) → Json → Option MoveType) (levels : Nat) (j : Json) :
    Option MoveStruct := do
  let f ← j.fields? ["address", "module", "name", "typeArguments"] levels
  let arguments ← match f.get? "typeArguments" with
    | none => some []
    | some j => (← j.items? f.levels).mapM (argument (f.levels - 1))
  return ⟨← f.required "address", ← f.required "module", ← f.required "name", arguments⟩

/-- Reads a type. Every step into a type takes up a level of nesting at least. -/
def ofLevels? : (fuel : Nat) → (levels : Nat) → Json → Option MoveType
  | 0, _, _ => none
  | fuel + 1, levels, j => do
    let v ← j.variant? levels
    match v.name with
    | "Struct" =>
      let s ← structOfJson? (ofLevels? fuel) v.levels (← v.content)
      return .struct s.address s.module s.name s.arguments
    | "Vector" => .vector <$> ofLevels? fuel v.levels (← v.content)
    | "TypeParameter" => .typeParameter <$> v.value?
    | "Reference" => .reference <$> ofLevels? fuel v.levels (← v.content)
    | "MutableReference" => .mutableReference <$> ofLevels? fuel v.levels (← v.content)
    | name => if v.isUnit then (simple.find? fun entry => entry.1 == name).map (·.2) else none

instance : JsonForm MoveType where
  toJson := json
  ofJson? levels j := ofLevels? (levels + 1) levels j

end MoveType

instance : JsonForm MoveStruct where
  toJson s := MoveType.structJson s.address s.module s.name (s.arguments.map toJson)
  ofJson? levels j := MoveType.structOfJson? ofJson? levels j

/-- The names of the visibilities in answers. -/
def Visibility.names : List (String × Visibility) :=
  [("Private", .moduleOnly), ("Public", .everywhere), ("Friend", .friends)]

instance : JsonForm Visibility where
  toJson
    | .moduleOnly => .ofString "Private"
    | .everywhere => .ofString "Public"
    | .friends => .ofString "Friend"
  ofJson? levels j := j.unitVariant? Visibility.names levels

instance : JsonForm MoveFunction where
  toJson f := .ofFields [("visibility", toJson f.visibility), ("isEntry", toJson f.isEntry),
    ("typeParameters", toJson f.typeParameters), ("parameters", toJson f.parameters),
    ("return", toJson f.returns)]
  ofJson? levels j := do
    let f ← j.fields? ["visibility", "isEntry", "typeParameters", "parameters", "return"] levels
    return ⟨← f.required "visibility", ← f.required "isEntry", ← f.withDefault "typeParameters" [],
      ← f.required "parameters", ← f.withDefault "return" []⟩

end MoveTx
