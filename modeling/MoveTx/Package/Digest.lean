import MoveTx.Address
import MoveTx.Hash.Blake2b

/-!
# Package digests

The digest of a package is the hash of its components in ascending order: the hash of each module and
the address of each dependency, 32 bytes each. It does not depend on the order in which they are given.
-/

namespace MoveTx

structure PackageDigest where
  raw : Bytes32
  deriving DecidableEq

namespace PackageDigest

/-- Puts a component before the first that is greater. -/
def insertComponent (c : Bytes32) : List Bytes32 → List Bytes32
  | [] => [c]
  | d :: rest => if c.before d then c :: d :: rest else d :: insertComponent c rest

/-- The components in ascending order. -/
def sortComponents (cs : List Bytes32) : List Bytes32 :=
  cs.foldr insertComponent []

/-- What stands for the modules and the dependencies, in the order given. -/
def components (modules : List Bytes) (dependencies : List Address) : List Bytes32 :=
  modules.map Blake2b.hash ++ dependencies.map Address.raw

/-- What the digest is the hash of. -/
def preimage (modules : List Bytes) (dependencies : List Address) : Bytes :=
  (sortComponents (components modules dependencies)).flatMap FixedBytes.toBytes

def compute (modules : List Bytes) (dependencies : List Address) : PackageDigest :=
  ⟨Blake2b.hash (preimage modules dependencies)⟩

def bytes (d : PackageDigest) : Bytes :=
  d.raw.toBytes

def text (d : PackageDigest) : String :=
  Hex.encode d.bytes

/-- The characters without any `0x` in front. -/
def trimMarks : List Char → List Char
  | '0' :: 'x' :: rest => trimMarks rest
  | cs => cs

/-- Reads 64 hex digits, however often `0x` stands before them. -/
def ofText? (s : String) : Option PackageDigest := do
  let bs ← Hex.decodeChars? (trimMarks s.toList)
  let raw ← FixedBytes.ofBytes? 32 bs
  return ⟨raw⟩

/-- The first eight bytes under the name of the type. -/
def describe (d : PackageDigest) : String :=
  "PackageDigest(" ++ Hex.encode (d.bytes.take 8) ++ "...)"

end PackageDigest

end MoveTx
