import MoveTx.PureValue
import MoveTx.Transaction.Basic

/-!
# Values given to calls

What a caller hands over for a parameter: a handle from an earlier command, a pure value, an address
whose role the parameter decides, an object by id or by reference, or a sequence or an optional value
of these.
-/

namespace MoveTx

inductive CallValue
  | argument (handle : Argument)
  | pure (value : PureValue)
  /-- An account or an object, as the parameter decides. -/
  | address (value : Address)
  /-- An object whose reference is still to be looked up. -/
  | objectId (id : Address)
  | object (ref : ObjectRef)
  | shared (ref : SharedRef)
  | seq (items : List CallValue)
  | absent
  | present (value : CallValue)

/-- The fields of the reference by name. -/
def ObjectRef.describe (r : ObjectRef) : String :=
  "ObjectReference \x7b object_id: " ++ r.id.describe ++ s!", version: {r.version.toNat}, digest: " ++
    r.digest.describe ++ " \x7d"

/-- The fields of the reference by name. -/
def SharedRef.describe (r : SharedRef) : String :=
  "SharedObjectReference \x7b object_id: " ++ r.id.describe ++
    s!", initial_shared_version: {r.initialVersion.toNat}, mutable: {r.isMutable}" ++ " \x7d"

namespace CallValue

mutual

/-- The value in full, with the kind of every part. -/
def describe : CallValue → String
  | .argument a => "Argument(" ++ a.describe ++ ")"
  | .pure v => "Pure(" ++ v.describe ++ ")"
  | .address a => "Address(" ++ a.describe ++ ")"
  | .objectId a => "ObjectId(" ++ a.describe ++ ")"
  | .object r => "Object(" ++ r.describe ++ ")"
  | .shared r => "Shared(" ++ r.describe ++ ")"
  | .seq items => "Seq([" ++ String.intercalate ", " (describeList items) ++ "])"
  | .absent => "Optional(None)"
  | .present v => "Optional(Some(" ++ describe v ++ "))"

def describeList : List CallValue → List String
  | [] => []
  | v :: vs => describe v :: describeList vs

end

end CallValue

end MoveTx
