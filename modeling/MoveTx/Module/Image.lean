import MoveTx.Module.Table

/-!
# Compiled modules

The image of a module is a magic word, a version, a directory of tables, their bodies, and at the very
end the index of the module's own handle. `ModuleImage.parse` checks the directory; bodies are read
when they are asked for.
-/

namespace MoveTx

/-- A table header: where the body starts, counted from the end of the directory, and its length. -/
structure TableHeader where
  kind : TableKind
  offset : Nat
  length : Nat
  deriving DecidableEq

/-- Where a table body stands in the image. -/
structure TableRange where
  start : Nat
  stop : Nat
  deriving DecidableEq

structure ModuleImage where
  bytes : Bytes
  version : Nat
  /-- The place of the module's own handle. -/
  selfIndex : UInt16
  /-- At most one range for each kind, in the order of the bytes of the kinds. -/
  tables : List (TableKind × TableRange)

namespace ModuleImage

def magic : Bytes := [0xa1, 0x1c, 0xeb, 0x0b]

/-- The latest version that is read. -/
def maxVersion : Nat := 7

/-- The greatest byte position that can be named. -/
def maxPosition : Nat := UInt64.size - 1

/-- The magic word. Fewer than four bytes count as four zeros. -/
def readMagic : ModuleReader Unit := do
  let bs ← get
  let found := if hasAtLeast 4 bs then bs.take 4 else [0, 0, 0, 0]
  if found = magic then set (bs.drop 4) else throw (.badMagic found)

/-- The version, without the top byte, which tells flavors apart. -/
def readVersion : ModuleReader Nat := do
  let word ← ModuleReader.ofReader (Reader.littleEndian 4)
  let version := word % 0x1000000
  if version = 0 ∨ maxVersion < version then throw (.unsupportedVersion version) else return version

/-- A header of the directory of an image of `length` bytes. -/
def readHeader (length : Nat) : ModuleReader TableHeader := do
  let byte ← ModuleReader.ofReader Reader.byte
  match TableKind.ofByte? byte with
  | none => throw (.unknownTableKind byte)
  | some kind =>
    let offset ← ModuleReader.ofReader Reader.uleb
    let size ← ModuleReader.ofReader Reader.uleb
    if offset < UInt32.size ∧ size < UInt32.size then return ⟨kind, offset, size⟩
    else throw (.truncatedTable kind maxPosition length)

def readDirectory (length : Nat) : ModuleReader (Nat × List TableHeader) := do
  readMagic
  let version ← readVersion
  let count ← ModuleReader.ofReader Reader.uleb
  let headers ← Reader.times (readHeader length) count
  return (version, headers)

/-- Where the body of a table stands, after a directory of `base` bytes. -/
def place (base length : Nat) (h : TableHeader) : Except ModuleError (TableKind × TableRange) :=
  let start := base + h.offset
  let stop := start + h.length
  if length < stop then .error (.truncatedTable h.kind stop length)
  else .ok (h.kind, ⟨start, stop⟩)

/-- One range for each kind, the last one listed. -/
def collect (ranges : List (TableKind × TableRange)) : List (TableKind × TableRange) :=
  TableKind.all.filterMap fun kind => ranges.reverse.find? fun range => range.1 == kind

/-- The index in the last byte, which must lie after the directory and be the only byte of its
number. -/
def selfIndexOf (base : Nat) (bytes : Bytes) : Except ModuleError UInt16 :=
  match bytes.getLast? with
  | some b =>
    if b < 0x80 ∧ base < bytes.length then .ok (UInt16.ofNat b.toNat)
    else .error (.codec .unterminatedVarInt)
  | none => .error (.codec .unterminatedVarInt)

def parse (bytes : Bytes) : Except ModuleError ModuleImage :=
  match (readDirectory bytes.length).run bytes with
  | .error e _ => .error e
  | .ok (version, headers) rest => do
    let base := bytes.length - rest.length
    let ranges ← headers.mapM (place base bytes.length)
    let selfIndex ← selfIndexOf base bytes
    return ⟨bytes, version, selfIndex, collect ranges⟩

/-- Parses what reading a file gave. -/
def ofFile (content : Option Bytes) : Except ModuleError ModuleImage :=
  match content with
  | none => .error .unreadable
  | some bytes => parse bytes

/-! ### Tables -/

/-- The body of a table. -/
def body? (m : ModuleImage) (kind : TableKind) : Option Bytes :=
  (m.tables.find? fun entry => entry.1 == kind).map fun (_, range) =>
    (m.bytes.drop range.start).take (range.stop - range.start)

/-- The entries of a table, none when the module has no such table. -/
def entries {α : Type} (m : ModuleImage) (kind : TableKind) (entry : ModuleReader α) :
    Except ModuleError (List α) :=
  match m.body? kind with
  | none => .ok []
  | some body => readTable entry body

def identifiers (m : ModuleImage) : Except ModuleError (List String) :=
  m.entries .identifiers (.ofReader Reader.string)

def addresses (m : ModuleImage) : Except ModuleError (List Address) :=
  m.entries .addressIdentifiers (.ofReader decode)

def moduleHandles (m : ModuleImage) : Except ModuleError (List ModuleHandle) :=
  m.entries .moduleHandles .moduleHandle

def structHandles (m : ModuleImage) : Except ModuleError (List StructHandle) :=
  m.entries .structHandles .structHandle

/-- Friends are module handles in a table of their own. -/
def friends (m : ModuleImage) : Except ModuleError (List ModuleHandle) :=
  m.entries .friendDeclarations .moduleHandle

def fieldHandles (m : ModuleImage) : Except ModuleError (List FieldHandle) :=
  m.entries .fieldHandles .fieldHandle

/-- The entry at an index of a table that the module must have. -/
def entryAt {α : Type} (m : ModuleImage) (kind : TableKind) (entry : ModuleReader α) (index : UInt16) :
    Except ModuleError α :=
  match m.body? kind with
  | none => .error (.missingTable kind)
  | some body => do
    let entries ← readTable entry body
    match entries[index.toNat]? with
    | some a => return a
    | none => .error (.outOfBounds kind index.toNat entries.length)

/-- The module's own handle. -/
def selfHandle (m : ModuleImage) : Except ModuleError ModuleHandle :=
  m.entryAt .moduleHandles .moduleHandle m.selfIndex

/-- The name of the module, through its own handle. -/
def name (m : ModuleImage) : Except ModuleError String := do
  let handle ← m.selfHandle
  m.entryAt .identifiers (.ofReader Reader.string) handle.name

/-- The address that the module was compiled at, through its own handle. -/
def address (m : ModuleImage) : Except ModuleError Address := do
  let handle ← m.selfHandle
  m.entryAt .addressIdentifiers (.ofReader decode) handle.address

end ModuleImage

end MoveTx
