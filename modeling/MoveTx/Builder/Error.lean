import MoveTx.CallValue

/-!
# Why a transaction cannot be built

`BuilderError` names what is wrong with a step of building or with the transaction that was built, and
`BuilderError.message` says it.
-/

namespace MoveTx

/-- A bound on the size of a programmable transaction. -/
inductive Limit
  | inputs
  | commands
  | pureBytes
  deriving DecidableEq

/-- What keeps the values given to an operation from fitting it. -/
inductive Mismatch
  | argumentCount (target : String) (expected actual : Nat)
  | typeArgumentCount (target : String) (expected actual : Nat)
  | nothingToStake
  | paymentCount (recipients amounts : Nat)
  /-- Two references to one object that cannot both be right. -/
  | conflictingReferences (id : Address)
  | sharedReceived
  | pureForObject (value : PureValue)
  | objectForPure (value : CallValue)
  | optionalObject
  | namesNoObject (value : CallValue)
  | pureForObjectVector
  | badName (error : TextError)

/-- What keeps the items of a sequence apart. -/
inductive Heterogeneity
  | pureAmongObjects
  | types (first other : TypeTag)

inductive BuilderError
  | alreadyFinalized
  | forwardReference (command : Nat) (referenced : UInt16)
  | inputOutOfBounds (command : Nat) (input : UInt16) (count : Nat)
  | unresolvedObject (id : Address)
  | emptyCommands
  | argumentTypeMismatch (cause : Mismatch)
  | vectorEmpty
  | vectorHeterogeneous (cause : Heterogeneity)
  | limitExceeded (limit : Limit)
  | notAnObjectInput (argument : Argument)

def Limit.message : Limit → String
  | inputs => "inputs"
  | commands => "commands"
  | pureBytes => "pure argument bytes"

def Mismatch.message : Mismatch → String
  | argumentCount target expected actual => s!"{target} takes {expected} arguments, got {actual}"
  | typeArgumentCount target expected actual =>
    s!"{target} takes {expected} type arguments, got {actual}"
  | nothingToStake => "no coins to stake"
  | paymentCount recipients amounts => s!"{recipients} recipients for {amounts} amounts"
  | conflictingReferences id => "object " ++ id.text ++ " admitted with conflicting references"
  | sharedReceived => "a shared object cannot be received"
  | pureForObject value => "pure value " ++ value.describe ++ " given for an object parameter"
  | objectForPure value => "object " ++ value.describe ++ " given for a pure parameter"
  | optionalObject => "optional objects must be built with optional_object"
  | namesNoObject value => value.describe ++ " does not name an object"
  | pureForObjectVector => "pure values given for a vector of objects"
  | badName error => error.message

def Heterogeneity.message : Heterogeneity → String
  | pureAmongObjects => "pure values mixed with objects"
  | types first other => "elements of type " ++ first.text ++ " and " ++ other.text

/-- The name of the fault, for programs that tell faults apart. -/
def BuilderError.code : BuilderError → String
  | alreadyFinalized => "Builder.AlreadyFinalized"
  | forwardReference _ _ => "Builder.ForwardReference"
  | inputOutOfBounds _ _ _ => "Builder.InputOutOfBounds"
  | unresolvedObject _ => "Builder.UnresolvedObject"
  | emptyCommands => "Builder.EmptyCommands"
  | argumentTypeMismatch _ => "Builder.ArgumentTypeMismatch"
  | vectorEmpty => "Builder.VectorEmpty"
  | vectorHeterogeneous _ => "Builder.VectorHeterogeneous"
  | limitExceeded _ => "Builder.LimitExceeded"
  | notAnObjectInput _ => "Builder.NotAnObjectInput"

def BuilderError.message : BuilderError → String
  | alreadyFinalized => "builder already finalized"
  | forwardReference command referenced =>
    s!"command {command} references result of command {referenced.toNat}, which is not earlier"
  | inputOutOfBounds command input count =>
    s!"command {command} references input {input.toNat}, but only {count} inputs exist"
  | unresolvedObject id => "object " ++ id.text ++ " was never resolved to a full reference"
  | emptyCommands => "programmable transaction has no commands"
  | argumentTypeMismatch cause => "argument type mismatch: " ++ cause.message
  | vectorEmpty => "move vector has no elements and no element type"
  | vectorHeterogeneous cause => "move vector elements are of mixed kinds: " ++ cause.message
  | limitExceeded limit => "too many " ++ limit.message ++ " for a programmable transaction"
  | notAnObjectInput argument =>
    "argument " ++ argument.describe ++ " does not refer to an object input"

end MoveTx
