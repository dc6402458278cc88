import MoveTx.Draft.Calls

/-!
# Accesses to objects

A value that names an object by its id alone, or by a shared reference, asks for access to it. The access
is mutable unless the value stands behind a reference that is not, and a shared reference may ask for more
than its parameter does.
-/

namespace MoveTx

/-- What a value asks of an object that is or may turn out to be shared. -/
structure Access where
  id : Address
  byReference : Bool
  isMutable : Bool
  deriving DecidableEq

namespace CallValue

/-- The access that a value asks for when it is given as an object. An owned reference asks for none, since
its object is not shared. -/
def accesses (p : Parameter) : CallValue → List Access
  | address id | objectId id => [⟨id, false, p.needsMutable⟩]
  | shared r => [⟨r.id, true, r.isMutable || p.needsMutable⟩]
  | _ => []

/-- The accesses that a value asks for when its parameter decides what it is given as. -/
def loweredAccesses (p : Parameter) (value : CallValue) : List Access :=
  match value with
  | address _ => if p.mayTakeObject then value.accesses p else []
  | seq items =>
    if (asPureList? items p.element).isSome then [] else items.flatMap (accesses p.element)
  | _ => value.accesses p

end CallValue

/-- The accesses that a call asks for, one value to each parameter. -/
def MoveFunction.accesses (f : MoveFunction) (values : List CallValue) : List Access :=
  (values.zip f.userParameters).flatMap fun (value, t) => value.loweredAccesses (some t)

/-- The use that is noted of an access. -/
def Access.use (access : Access) : ObjectUse :=
  ⟨access.id, access.isMutable && !(access.byReference && access.id.isAlwaysImmutable)⟩

end MoveTx
