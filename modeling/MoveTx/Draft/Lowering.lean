import MoveTx.Draft.Basic

/-!
# Lowering values

`Draft.lower` turns a value given for a parameter into the handle of an input or of a result. A value
that can be pure bytes becomes one pure input, however deep it is. A sequence with objects in it becomes
a vector of their handles.
-/

namespace MoveTx

namespace CallValue

mutual

/-- The pure value that a value stands for, if it stands for one. -/
def asPure? : CallValue → Parameter → Option PureValue
  | .pure v, _ => some v
  | .address a, p => if p.mayTakeObject then none else some (.ofAddress a)
  | .seq items, p => (asPureList? items p.element).map .seq
  | .absent, _ => some .absent
  | .present v, p => (asPure? v p.element).map .present
  | .argument _, _ | .objectId _, _ | .object _, _ | .shared _, _ => none

def asPureList? : List CallValue → Parameter → Option (List PureValue)
  | [], _ => some []
  | v :: vs, p => do return (← asPure? v p) :: (← asPureList? vs p)

end

/-- Whether the value can be an item of a vector of objects. -/
def canBeObject (p : Parameter) : CallValue → Bool
  | .argument _ | .objectId _ | .object _ | .shared _ => true
  | .address _ => p.mayTakeObject
  | _ => false

end CallValue

namespace Draft

/-- Fails when two items of known types differ in type. Items that show no type are passed over. -/
def checkHomogeneous (items : List PureValue) : Except BuilderError Unit :=
  match items.filterMap PureValue.typeTag? with
  | [] => .ok ()
  | first :: rest =>
    match rest.find? (· ≠ first) with
    | none => .ok ()
    | some other => .error (.vectorHeterogeneous (.types first other))

/-- The handle of a sequence whose items are given for `element`. -/
def lowerSeq (items : List CallValue) (element : Parameter) : DraftStep Argument :=
  match CallValue.asPureList? items element with
  | some values =>
    if element.takesObject && !items.isEmpty then throw (.argumentTypeMismatch .pureForObjectVector)
    else
      match checkHomogeneous values with
      | .error e => throw e
      | .ok () => pureInput (.seq values)
  | none =>
    if items.all (CallValue.canBeObject element) then do
      let elements ← items.mapM fun item => lowerObject item element
      onBuilder (Builder.makeMoveVec (element.bind MoveType.tag?) elements)
    else throw (.vectorHeterogeneous .pureAmongObjects)

/-- The handle of a value that is given for a parameter. -/
def lower (value : CallValue) (p : Parameter) : DraftStep Argument :=
  match value with
  | .argument handle => return handle
  | .pure v =>
    if p.takesObject then throw (.argumentTypeMismatch (.pureForObject v)) else pureInput v
  | .address a => if p.mayTakeObject then lowerObject value p else addressInput a
  | .objectId _ | .object _ | .shared _ =>
    if p.takesPure then throw (.argumentTypeMismatch (.objectForPure value)) else lowerObject value p
  | .seq items => lowerSeq items p.element
  | .absent => pureInput .absent
  | .present v =>
    match v.asPure? p.element with
    | some value => pureInput (.present value)
    | none => throw (.argumentTypeMismatch .optionalObject)

end Draft

end MoveTx
