import MoveTx.Client.Error
import MoveTx.Signing.Key

/-!
# Keystores

A keystore holds key pairs by the addresses that they sign for, in ascending order.
-/

namespace MoveTx

/-- A key pair with its address. -/
structure StoredKey where
  address : Address
  pair : KeyPair
  address_eq : address = pair.address

structure Keystore where
  keys : List StoredKey

namespace Keystore

def empty : Keystore := ⟨[]⟩

def addresses (s : Keystore) : List Address :=
  s.keys.map (·.address)

def size (s : Keystore) : Nat :=
  s.keys.length

/-- The key pair that signs for an address. -/
def get? (s : Keystore) (address : Address) : Option KeyPair :=
  (s.keys.find? fun k => k.address == address).map (·.pair)

def contains (s : Keystore) (address : Address) : Bool :=
  s.addresses.contains address

/-- Puts a key at its place, where it replaces one of the same address. -/
def insertKey (k : StoredKey) : List StoredKey → List StoredKey
  | [] => [k]
  | other :: rest =>
    if k.address = other.address then k :: rest
    else if k.address.before other.address then k :: other :: rest
    else other :: insertKey k rest

def insert (s : Keystore) (pair : KeyPair) : Keystore :=
  ⟨insertKey ⟨pair.address, pair, rfl⟩ s.keys⟩

/-- The keystore of keystrings, all of which must denote keys. -/
def ofKeystrings (keystrings : List String) : Except SigningError Keystore := do
  let pairs ← keystrings.mapM KeyPair.ofKeystring
  return pairs.foldl insert empty

/-- The keystrings of all keys, in the order of their addresses. -/
def keystrings (s : Keystore) : List String :=
  s.keys.map fun k => k.pair.keystring

end Keystore

end MoveTx
