import MoveTx.Chain.MoveFunction
import MoveTx.TypeTag.Basic

/-!
# What a parameter takes

A parameter takes an object, pure bytes, or, when its type is generic or unknown, either. References do
not matter for this: they only say whether an object is needed mutably.
-/

namespace MoveTx

/-- The type of a parameter, where it is known. -/
abbrev Parameter := Option MoveType

/-- Whether values of the struct are pure bytes. -/
def MoveStruct.isPure (s : MoveStruct) : Bool :=
  s.isNamed .moveStdlib "string" "String" || s.isNamed .moveStdlib "ascii" "String" ||
    s.isNamed .moveStdlib "option" "Option" || s.isNamed .suiFramework "object" "ID"

namespace MoveType

/-- Whether only an object will do. -/
def takesObject (t : MoveType) : Bool :=
  t.dereferenced.struct?.any fun s => !s.isPure

/-- Whether an object will do. -/
def mayTakeObject (t : MoveType) : Bool :=
  t.takesObject || match t.dereferenced with
    | typeParameter _ => true
    | _ => false

/-- Whether only pure bytes will do. -/
def takesPure (t : MoveType) : Bool :=
  match t.dereferenced with
  | struct a m n ts => MoveStruct.isPure ⟨a, m, n, ts⟩
  | typeParameter _ => false
  | vector element => !element.mayTakeObject
  | _ => true

/-- The type of the items of a vector, or of the value of an optional one. -/
def element? (t : MoveType) : Option MoveType :=
  match t.dereferenced with
  | vector element => some element
  | struct a m n ts =>
    if MoveStruct.isNamed ⟨a, m, n, ts⟩ .moveStdlib "option" "Option" then ts.head? else none
  | _ => none

mutual

/-- The type tag of a type without parameters and references. -/
def tag? : MoveType → Option TypeTag
  | .bool => some (.primitive .bool)
  | .u8 => some (.primitive .u8)
  | .u16 => some (.primitive .u16)
  | .u32 => some (.primitive .u32)
  | .u64 => some (.primitive .u64)
  | .u128 => some (.primitive .u128)
  | .u256 => some (.primitive .u256)
  | .address => some (.primitive .address)
  | .signer => some (.primitive .signer)
  | .vector element => (tag? element).map .vector
  | .struct a m n ts => do
    let s ← (StructTag.parts a m n (← tagList? ts)).toOption
    return s.toTypeTag
  | .typeParameter _ | .reference _ | .mutableReference _ => none

def tagList? : List MoveType → Option (List TypeTag)
  | [] => some []
  | t :: ts => do return (← tag? t) :: (← tagList? ts)

end

end MoveType

namespace Parameter

def takesObject (p : Parameter) : Bool := p.any MoveType.takesObject
def mayTakeObject (p : Parameter) : Bool := p.any MoveType.mayTakeObject
def takesPure (p : Parameter) : Bool := p.any MoveType.takesPure
def element (p : Parameter) : Parameter := p.bind MoveType.element?

/-- Whether an object given for the parameter is needed mutably: always, but behind a reference that is
not mutable. -/
def needsMutable : Parameter → Bool
  | some (.reference _) => false
  | _ => true

end Parameter

end MoveTx
