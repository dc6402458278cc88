import MoveTx.Object
import MoveTx.TypeTag.Basic

/-!
# Programmable transactions

A programmable transaction is a list of inputs and a list of commands that use them. An argument of a
command is the gas coin, an input, or a result of an earlier command. `TransactionData` adds the
sender, the gas and the expiration, and is what gets signed.
-/

namespace MoveTx

inductive CallArg
  | pure (bytes : Bytes)
  | object (arg : ObjectArg)
  deriving DecidableEq

/-- The object that an input names, if it names one. -/
def CallArg.objectId? : CallArg → Option Address
  | pure _ => none
  | object arg => some arg.id

/-- A value inside a programmable transaction. -/
inductive Argument
  | gasCoin
  | input (index : UInt16)
  | result (command : UInt16)
  /-- One of several results of a command. -/
  | nestedResult (command index : UInt16)
  deriving DecidableEq

structure MoveCall where
  package : Address
  module : Identifier
  function : Identifier
  typeArguments : List TypeTag
  arguments : List Argument
  deriving DecidableEq

inductive Command
  | moveCall (call : MoveCall)
  | transferObjects (objects : List Argument) (recipient : Argument)
  | splitCoins (coin : Argument) (amounts : List Argument)
  | mergeCoins (destination : Argument) (sources : List Argument)
  | publish (modules : List Bytes) (dependencies : List Address)
  | makeMoveVec (elementType : Option TypeTag) (elements : List Argument)
  | upgrade (modules : List Bytes) (dependencies : List Address) (package : Address)
    (ticket : Argument)
  deriving DecidableEq

structure ProgrammableTransaction where
  inputs : List CallArg
  commands : List Command
  deriving DecidableEq

/-- What a transaction does. The chain has other kinds for its own use, which no client builds. -/
inductive TransactionKind
  | programmable (transaction : ProgrammableTransaction)
  deriving DecidableEq

/-- The coins that pay for a transaction, and on what terms. -/
structure GasData where
  payment : List ObjectRef
  owner : Address
  price : UInt64
  budget : UInt64
  deriving DecidableEq

inductive Expiration
  | never
  /-- The last epoch in which the transaction may run. -/
  | epoch (n : UInt64)
  deriving DecidableEq

structure TransactionData where
  kind : TransactionKind
  sender : Address
  gas : GasData
  expiration : Expiration
  deriving DecidableEq

namespace Argument

/-- The kind and the indices in parentheses. -/
def describe : Argument → String
  | gasCoin => "GasCoin"
  | input i => s!"Input({i.toNat})"
  | result i => s!"Result({i.toNat})"
  | nestedResult i j => s!"NestedResult({i.toNat}, {j.toNat})"

end Argument

namespace Command

def kindName : Command → String
  | moveCall _ => "MoveCall"
  | transferObjects _ _ => "TransferObjects"
  | splitCoins _ _ => "SplitCoins"
  | mergeCoins _ _ => "MergeCoins"
  | publish _ _ => "Publish"
  | makeMoveVec _ _ => "MakeMoveVec"
  | upgrade _ _ _ _ => "Upgrade"

/-- The names of all kinds. -/
def kindNames : List String :=
  ["MoveCall", "TransferObjects", "SplitCoins", "MergeCoins", "Publish", "MakeMoveVec", "Upgrade"]

/-- Every argument the command takes, in the order of its binary form. -/
def arguments : Command → List Argument
  | moveCall call => call.arguments
  | transferObjects objects recipient => objects ++ [recipient]
  | splitCoins coin amounts => coin :: amounts
  | mergeCoins destination sources => destination :: sources
  | publish _ _ => []
  | makeMoveVec _ elements => elements
  | upgrade _ _ _ ticket => [ticket]

end Command

/-- The data of a programmable transaction. -/
def TransactionData.programmable (sender : Address) (transaction : ProgrammableTransaction)
    (gas : GasData) (expiration : Expiration) : TransactionData :=
  ⟨.programmable transaction, sender, gas, expiration⟩

/-- The programmable transaction of a kind. -/
def TransactionKind.transaction : TransactionKind → ProgrammableTransaction
  | programmable t => t

end MoveTx
