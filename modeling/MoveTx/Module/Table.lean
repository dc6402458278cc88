import MoveTx.Address

/-!
# Tables of a compiled module

A compiled module is a set of tables, each a run of entries of one kind without a count. Entries refer
to each other by index: a module handle to an address and a name, a struct handle to its module and its
name. `ModuleError` names what can be wrong with a module.
-/

namespace MoveTx

inductive TableKind
  | moduleHandles
  | structHandles
  | functionHandles
  | functionInstances
  | signatures
  | constantPool
  | identifiers
  | addressIdentifiers
  | structDefinitions
  | structDefInstances
  | functionDefinitions
  | fieldHandles
  | fieldInstances
  | friendDeclarations
  | metadata
  deriving DecidableEq

namespace TableKind

/-- All kinds in the order of their bytes. -/
def all : List TableKind :=
  [moduleHandles, structHandles, functionHandles, functionInstances, signatures, constantPool,
    identifiers, addressIdentifiers, structDefinitions, structDefInstances, functionDefinitions,
    fieldHandles, fieldInstances, friendDeclarations, metadata]

/-- The byte that names the kind in a table header. -/
def byte : TableKind → UInt8
  | moduleHandles => 0x1
  | structHandles => 0x2
  | functionHandles => 0x3
  | functionInstances => 0x4
  | signatures => 0x5
  | constantPool => 0x6
  | identifiers => 0x7
  | addressIdentifiers => 0x8
  | structDefinitions => 0xa
  | structDefInstances => 0xb
  | functionDefinitions => 0xc
  | fieldHandles => 0xd
  | fieldInstances => 0xe
  | friendDeclarations => 0xf
  | metadata => 0x10

def ofByte? (b : UInt8) : Option TableKind :=
  all.find? fun k => k.byte == b

def name : TableKind → String
  | moduleHandles => "ModuleHandles"
  | structHandles => "StructHandles"
  | functionHandles => "FunctionHandles"
  | functionInstances => "FunctionInstances"
  | signatures => "Signatures"
  | constantPool => "ConstantPool"
  | identifiers => "Identifiers"
  | addressIdentifiers => "AddressIdentifiers"
  | structDefinitions => "StructDefinitions"
  | structDefInstances => "StructDefInstances"
  | functionDefinitions => "FunctionDefinitions"
  | fieldHandles => "FieldHandles"
  | fieldInstances => "FieldInstances"
  | friendDeclarations => "FriendDeclarations"
  | metadata => "MetaData"

end TableKind

inductive ModuleError
  | badMagic (found : Bytes)
  | unsupportedVersion (version : Nat)
  | unknownTableKind (byte : UInt8)
  | truncatedTable (kind : TableKind) (stop length : Nat)
  | outOfBounds (table : TableKind) (index length : Nat)
  | missingTable (kind : TableKind)
  | codec (error : CodecError)
  /-- The file could not be read. -/
  | unreadable
  deriving DecidableEq

/-- The name of the fault, for programs that tell faults apart. -/
def ModuleError.code : ModuleError → String
  | badMagic _ => "Bytecode.BadMagic"
  | unsupportedVersion _ => "Bytecode.UnsupportedVersion"
  | unknownTableKind _ => "Bytecode.UnknownTableKind"
  | truncatedTable _ _ _ => "Bytecode.TruncatedTable"
  | outOfBounds _ _ _ => "Bytecode.OutOfBounds"
  | missingTable _ => "Bytecode.MissingTable"
  | codec error => "Bytecode." ++ error.code
  | unreadable => "Bytecode.Io"

def ModuleError.message : ModuleError → String
  | badMagic found =>
    "not a compiled Move module: bad magic [" ++ String.intercalate ", " (found.map Hex.ofByte) ++ "]"
  | unsupportedVersion version => s!"unsupported bytecode version {version}"
  | unknownTableKind byte => "unknown table kind 0x" ++ Hex.ofByte byte
  | truncatedTable kind stop length =>
    "table " ++ kind.name ++ s!" ends at byte {stop}, past the {length}-byte module"
  | outOfBounds table index length =>
    s!"index {index} out of bounds for " ++ table.name ++ s!" with {length} entries"
  | missingTable kind => "module has no " ++ kind.name ++ " table"
  | codec error => "malformed table contents: " ++ error.message
  | unreadable => "I/O error: <io>"

/-! ### Entries -/

/-- A module by the indices of its address and its name. -/
structure ModuleHandle where
  address : UInt16
  name : UInt16
  deriving DecidableEq

/-- The abilities of a type, one bit each. -/
structure AbilitySet where
  bits : UInt8
  deriving DecidableEq

inductive Ability
  | copy
  | drop
  | store
  | key
  deriving DecidableEq

structure TypeParameter where
  constraints : AbilitySet
  isPhantom : Bool
  deriving DecidableEq

/-- A struct by the index of its module and its name. -/
structure StructHandle where
  module : UInt16
  name : UInt16
  abilities : AbilitySet
  parameters : List TypeParameter
  deriving DecidableEq

structure FieldHandle where
  owner : UInt16
  field : UInt16
  deriving DecidableEq

def Ability.mask : Ability → UInt8
  | copy => 1
  | drop => 2
  | store => 4
  | key => 8

def AbilitySet.has (s : AbilitySet) (a : Ability) : Bool :=
  s.bits &&& a.mask == a.mask

/-! ### Reading entries -/

/-- A computation that reads a part of a module. -/
abbrev ModuleReader (α : Type) := EStateM ModuleError Bytes α

namespace ModuleReader

/-- A reader of values as a reader of parts of modules. -/
def ofReader {α : Type} (r : Reader α) : ModuleReader α := fun bs =>
  match r bs with
  | .ok a rest => .ok a rest
  | .error e rest => .error (.codec e) rest

/-- An index of 16 bits into a table. -/
def index (table : TableKind) : ModuleReader UInt16 := do
  let n ← ofReader Reader.uleb
  if n < UInt16.size then return UInt16.ofNat n
  else throw (.outOfBounds table n (UInt16.size - 1))

def moduleHandle : ModuleReader ModuleHandle := do
  let address ← index .addressIdentifiers
  let name ← index .identifiers
  return ⟨address, name⟩

def typeParameter : Reader TypeParameter := do
  let constraints ← Reader.byte
  let isPhantom ← Reader.bool
  return ⟨⟨constraints⟩, isPhantom⟩

def structHandle : ModuleReader StructHandle := do
  let module ← index .moduleHandles
  let name ← index .identifiers
  let abilities ← ofReader Reader.byte
  let parameters ← ofReader (Reader.list typeParameter)
  return ⟨module, name, ⟨abilities⟩, parameters⟩

def fieldHandle : ModuleReader FieldHandle := do
  let owner ← index .structDefinitions
  let field ← index .fieldHandles
  return ⟨owner, field⟩

/-- Entries up to the end of the bytes, of which there are at most `count`. -/
def untilEnd {α : Type} (entry : ModuleReader α) : (count : Nat) → ModuleReader (List α)
  | 0 => return []
  | count + 1 => do
    match ← get with
    | [] => return []
    | _ =>
      let a ← entry
      let rest ← untilEnd entry count
      return a :: rest

end ModuleReader

/-- The entries that a table body holds. An entry takes one byte at least. -/
def readTable {α : Type} (entry : ModuleReader α) (body : Bytes) : Except ModuleError (List α) :=
  match (ModuleReader.untilEnd entry body.length).run body with
  | .ok entries _ => .ok entries
  | .error e _ => .error e

end MoveTx
