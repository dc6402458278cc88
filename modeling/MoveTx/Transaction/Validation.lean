import MoveTx.Builder.Error

/-!
# Well-formed transactions

A programmable transaction is well formed when it has commands but not too many, keeps the bounds on
inputs, and every argument of a command names an input that exists or the result of an earlier command.
-/

namespace MoveTx

def maxCommands : Nat := 1024

def maxInputs : Nat := 2048

/-- The longest pure input, in bytes. -/
def maxPureBytes : Nat := 16384

/-- Whether an argument names something that exists before the command at `index`. -/
def Argument.check (index inputCount : Nat) : Argument → Except BuilderError Unit
  | gasCoin => .ok ()
  | input i =>
    if i.toNat < inputCount then .ok () else .error (.inputOutOfBounds index i inputCount)
  | result j | nestedResult j _ =>
    if j.toNat < index then .ok () else .error (.forwardReference index j)

/-- Checks the arguments of commands, the first of which is at `index`. -/
def checkCommands (inputCount : Nat) : (index : Nat) → List Command → Except BuilderError Unit
  | _, [] => .ok ()
  | index, command :: rest => do
    command.arguments.forM (Argument.check index inputCount)
    checkCommands inputCount (index + 1) rest

namespace ProgrammableTransaction

def checkReferences (t : ProgrammableTransaction) : Except BuilderError Unit :=
  checkCommands t.inputs.length 0 t.commands

/-- Whether an input holds more pure bytes than allowed. -/
def isOversized : CallArg → Bool
  | .pure bytes => maxPureBytes < bytes.length
  | .object _ => false

def validate (t : ProgrammableTransaction) : Except BuilderError Unit :=
  if t.commands.isEmpty then .error .emptyCommands
  else if maxCommands < t.commands.length then .error (.limitExceeded .commands)
  else if maxInputs < t.inputs.length then .error (.limitExceeded .inputs)
  else if t.inputs.any isOversized then .error (.limitExceeded .pureBytes)
  else t.checkReferences

end ProgrammableTransaction

end MoveTx
