import MoveTx.Address
import MoveTx.Digest

/-!
# References to objects

An owned or immutable object is named by its id, version and digest, a shared object by its id and the
version at which it became shared. `ObjectArg` is a reference together with the way it is taken.
-/

namespace MoveTx

/-- One version of an owned or immutable object. -/
structure ObjectRef where
  id : Address
  version : UInt64
  digest : Digest
  deriving DecidableEq

/-- A shared object and whether it may be changed. -/
structure SharedRef where
  id : Address
  initialVersion : UInt64
  isMutable : Bool
  deriving DecidableEq

inductive ObjectArg
  | owned (ref : ObjectRef)
  | shared (ref : SharedRef)
  /-- An owned object that was sent to another object. -/
  | receiving (ref : ObjectRef)
  deriving DecidableEq

def ObjectArg.id : ObjectArg → Address
  | owned r | receiving r => r.id
  | shared s => s.id

instance : Codec ObjectRef where
  encode r := encode r.id ++ encode r.version ++ encode r.digest
  decode := do
    let id ← decode
    let version ← decode
    let digest ← decode
    return ⟨id, version, digest⟩

instance : Codec SharedRef where
  encode s := encode s.id ++ encode s.initialVersion ++ encode s.isMutable
  decode := do
    let id ← decode
    let initialVersion ← decode
    let isMutable ← decode
    return ⟨id, initialVersion, isMutable⟩

instance : Codec ObjectArg where
  encode
    | .owned r => Codec.uleb 0 ++ encode r
    | .shared s => Codec.uleb 1 ++ encode s
    | .receiving r => Codec.uleb 2 ++ encode r
  decode := do
    match ← Reader.variant with
    | 0 => .owned <$> decode
    | 1 => .shared <$> decode
    | 2 => .receiving <$> decode
    | tag => throw (.invalidTag "ObjectArg" tag)

end MoveTx
