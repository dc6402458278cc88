import MoveTx.Builder.Basic
import MoveTx.Draft.Parameter

/-!
# Drafts

A draft is a builder together with the uses of its objects. An object that is known by id alone may
turn out to be shared, and is then taken mutably if any of its uses needs that.
-/

namespace MoveTx

/-- What an object is used for. -/
structure ObjectUse where
  id : Address
  isMutable : Bool
  deriving DecidableEq

structure Draft where
  builder : Builder
  /-- The latest use comes first. -/
  uses : List ObjectUse

/-- A step of drafting. What it did before it failed stays done. -/
abbrev DraftStep (α : Type) := EStateM BuilderError Draft α

namespace Draft

def empty : Draft := ⟨.empty, []⟩

def usesOf (d : Draft) (id : Address) : List ObjectUse :=
  d.uses.filter fun use => use.id == id

/-- Whether an object should be taken mutably if it is shared. One without uses should. -/
def wantsMutable (d : Draft) (id : Address) : Bool :=
  (d.usesOf id).isEmpty || (d.usesOf id).any (·.isMutable)

/-! ### Steps -/

/-- A step of the builder inside. -/
def onBuilder {α : Type} (step : BuilderStep α) : DraftStep α := fun d =>
  match step d.builder with
  | .ok a b => .ok a { d with builder := b }
  | .error e b => .error e { d with builder := b }

def noteUse (id : Address) (isMutable : Bool) : DraftStep Unit :=
  modify fun d => { d with uses := ⟨id, isMutable⟩ :: d.uses }

/-- Admits a pure value. -/
def pureInput (value : PureValue) : DraftStep Argument :=
  onBuilder (Builder.pure value)

def addressInput (value : Address) : DraftStep Argument :=
  pureInput (.ofAddress value)

/-- Appends a command and gives the handle of its result. -/
def append (c : Command) : DraftStep Argument :=
  onBuilder (Builder.command c)

/-- A shared object as a use takes it. Those that may only be read are never taken mutably. -/
def sharedUse (r : SharedRef) (p : Parameter) : SharedRef :=
  { r with isMutable := (r.isMutable || p.needsMutable) && !r.id.isAlwaysImmutable }

/-- The handle of a value that must name an object. A bare address is the id of one. -/
def lowerObject (value : CallValue) (p : Parameter) : DraftStep Argument :=
  match value with
  | .argument handle => return handle
  | .address id | .objectId id => do
    noteUse id p.needsMutable
    onBuilder (Builder.objectId id)
  | .object r => onBuilder (Builder.object (.owned r))
  | .shared r => do
    let r := sharedUse r p
    noteUse r.id r.isMutable
    onBuilder (Builder.object (.shared r))
  | other => throw (.argumentTypeMismatch (.namesNoObject other))

/-- The handles of values that must name objects, for no parameter in particular. -/
def lowerObjects (values : List CallValue) : DraftStep (List Argument) :=
  values.mapM fun value => lowerObject value none

end Draft

end MoveTx
