import MoveTx.Transaction.Validation

/-!
# Building a programmable transaction

The builder holds inputs, each under a key, and commands. Admitting what is already there under its key
gives the handle of the first admission. An object admitted by id alone stays unresolved until its full
reference is supplied. Once finalized, the builder changes no more.
-/

namespace MoveTx

/-- What makes two admissions the same input. -/
inductive InputKey
  | object (id : Address)
  | pure (bytes : Bytes) (origin : PureOrigin)
  /-- An input that is never shared, by its number. -/
  | unique (number : UInt64)
  deriving DecidableEq

inductive InputSlot
  | resolved (arg : CallArg)
  /-- An object known by id, and whether it is to be received. -/
  | unresolved (id : Address) (receiving : Bool)
  deriving DecidableEq

structure Builder where
  /-- In the order of admission. -/
  inputs : List (InputKey × InputSlot)
  commands : List Command
  /-- Ids of objects named as inputs, ascending. Gas must not be paid with them. -/
  objectsInUse : List Address
  /-- The number of the next input that is never shared. After the last word comes zero again. -/
  nonce : UInt64
  finalized : Bool

/-- A step of building. What it did before it failed stays done. -/
abbrev BuilderStep (α : Type) := EStateM BuilderError Builder α

namespace Builder

def empty : Builder := ⟨[], [], [], 0, false⟩

instance : Inhabited Builder := ⟨empty⟩

/-! ### What the builder holds -/

def slots (b : Builder) : List InputSlot :=
  b.inputs.map (·.2)

/-- The place of the input under a key. -/
def indexOf? (b : Builder) (key : InputKey) : Option Nat :=
  b.inputs.findIdx? fun entry => entry.1 == key

/-- Ids of the objects that lack a full reference, in the order of inputs. -/
def unresolvedIds (b : Builder) : List Address :=
  b.slots.filterMap fun
    | .unresolved id _ => some id
    | .resolved _ => none

def isInUse (b : Builder) (id : Address) : Bool :=
  b.objectsInUse.contains id

/-- How many commands there are of a kind. -/
def commandCount (b : Builder) (kind : String) : Nat :=
  b.commands.countP fun command => command.kindName == kind

/-- How many commands there are of each kind that occurs. -/
def summary (b : Builder) : List (String × Nat) :=
  (Command.kindNames.map fun kind => (kind, b.commandCount kind)).filter fun entry => entry.2 ≠ 0

/-- Replaces the slot at a place. -/
def setSlot (b : Builder) (index : Nat) (slot : InputSlot) : Builder :=
  { b with inputs := b.inputs.modify index fun entry => (entry.1, slot) }

/-! ### Inputs -/

def ensureOpen : BuilderStep Unit := do
  if (← get).finalized then throw .alreadyFinalized else return ()

/-- The handle of the input under a key, which is added when it is new. -/
def insert (key : InputKey) (slot : InputSlot) : BuilderStep Argument := do
  let b ← get
  match b.indexOf? key with
  | some index => return .input (UInt16.ofNat index)
  | none =>
    if maxInputs ≤ b.inputs.length then throw (.limitExceeded .inputs)
    else
      set { b with inputs := b.inputs ++ [(key, slot)] }
      return .input (UInt16.ofNat b.inputs.length)

/-- Admits pure bytes, shared with an input of the same bytes and origin. -/
def pureBytes (value : PureBytes) : BuilderStep Argument := do
  ensureOpen
  insert (.pure value.bytes value.origin) (.resolved (.pure value.bytes))

/-- Admits a pure value. -/
def pure (value : PureValue) : BuilderStep Argument :=
  pureBytes value.encoded

/-- Admits pure bytes as an input of their own. -/
def uniquePure (value : PureBytes) : BuilderStep Argument := do
  ensureOpen
  let b ← get
  set { b with nonce := b.nonce + 1 }
  insert (.unique b.nonce) (.resolved (.pure value.bytes))

def markInUse (id : Address) : BuilderStep Unit :=
  modify fun b => { b with objectsInUse := Address.insert id b.objectsInUse }

/-- An owned reference as a receiving slot takes it. Every other reference stays as it is. -/
def received : ObjectArg → ObjectArg
  | .owned r => .receiving r
  | arg => arg

/-- The slot for an object that is admitted again, if the two references agree. A shared object is
mutable when either is, and an object marked for receiving stays so. -/
def mergeObject (slot : InputSlot) (incoming : ObjectArg) : Except BuilderError InputSlot :=
  let conflict := .error (.argumentTypeMismatch (.conflictingReferences incoming.id))
  let done (arg : ObjectArg) := .ok (.resolved (.object arg))
  match slot with
  | .unresolved _ receiving => done (if receiving then received incoming else incoming)
  | .resolved (.pure _) => conflict
  | .resolved (.object current) =>
    match current, incoming with
    | .shared a, .shared b =>
      if a.initialVersion = b.initialVersion then
        done (.shared { a with isMutable := a.isMutable || b.isMutable })
      else conflict
    | .receiving a, .owned b => if a = b then done current else conflict
    | _, _ => if current = incoming then done current else conflict

/-- Admits an object by its reference. -/
def object (arg : ObjectArg) : BuilderStep Argument := do
  ensureOpen
  let b ← get
  let key := InputKey.object arg.id
  match b.indexOf? key with
  | some index =>
    match b.inputs[index]? with
    | none => throw (.unresolvedObject arg.id)
    | some (_, slot) =>
      match mergeObject slot arg with
      | .error e => throw e
      | .ok merged =>
        set (b.setSlot index merged)
        return .input (UInt16.ofNat index)
  | none =>
    markInUse arg.id
    insert key (.resolved (.object arg))

/-- Admits an object by id alone. -/
def objectId (id : Address) : BuilderStep Argument := do
  ensureOpen
  markInUse id
  insert (.object id) (.unresolved id false)

/-- Turns an owned object input into a receiving one. -/
def markReceiving (arg : Argument) : BuilderStep Unit := do
  ensureOpen
  let b ← get
  match arg with
  | .input index =>
    match b.slots[index.toNat]? with
    | some (.unresolved id _) => set (b.setSlot index.toNat (.unresolved id true))
    | some (.resolved (.object (.owned r))) =>
      set (b.setSlot index.toNat (.resolved (.object (.receiving r))))
    | some (.resolved (.object (.receiving _))) => return ()
    | some (.resolved (.object (.shared _))) => throw (.argumentTypeMismatch .sharedReceived)
    | _ => throw (.notAnObjectInput arg)
  | _ => throw (.notAnObjectInput arg)

/-- Supplies the reference of an object that was admitted. -/
def resolve (arg : ObjectArg) : BuilderStep Unit := do
  ensureOpen
  let b ← get
  match b.indexOf? (.object arg.id) with
  | none => throw (.unresolvedObject arg.id)
  | some index =>
    match b.slots[index]? with
    | some (.unresolved _ true) => set (b.setSlot index (.resolved (.object (received arg))))
    | _ => set (b.setSlot index (.resolved (.object arg)))

/-! ### Commands -/

/-- Appends a command and gives the handle of its result. -/
def command (c : Command) : BuilderStep Argument := do
  ensureOpen
  let b ← get
  if maxCommands ≤ b.commands.length then throw (.limitExceeded .commands)
  else
    set { b with commands := b.commands ++ [c] }
    return .result (UInt16.ofNat b.commands.length)

/-- Appends a vector of `elements`, whose type must be given when there are none. -/
def makeMoveVec (elementType : Option TypeTag) (elements : List Argument) :
    BuilderStep Argument := do
  if elements.isEmpty && elementType.isNone then throw .vectorEmpty
  else command (.makeMoveVec elementType elements)

def moveCall (package : Address) (module function : Identifier) (typeArguments : List TypeTag)
    (arguments : List Argument) : BuilderStep Argument :=
  command (.moveCall ⟨package, module, function, typeArguments, arguments⟩)

/-! ### The finished transaction -/

/-- The input of a slot, which must be resolved. -/
def slotArg : InputSlot → Except BuilderError CallArg
  | .resolved arg => .ok arg
  | .unresolved id _ => .error (.unresolvedObject id)

/-- Inputs and commands as they stand, when every input is resolved. -/
def snapshot (b : Builder) : Except BuilderError ProgrammableTransaction := do
  let inputs ← b.slots.mapM slotArg
  return ⟨inputs, b.commands⟩

/-- The transaction as it stands, checked for references only. -/
def inspect (b : Builder) : Except BuilderError TransactionKind := do
  let t ← b.snapshot
  t.checkReferences
  return .programmable t

/-- The finished transaction. Closes the builder. -/
def finalize : BuilderStep ProgrammableTransaction := do
  ensureOpen
  let b ← get
  match b.snapshot with
  | .error e => throw e
  | .ok t =>
    match t.validate with
    | .error e => throw e
    | .ok () =>
      set { b with finalized := true }
      return t

end Builder

end MoveTx
