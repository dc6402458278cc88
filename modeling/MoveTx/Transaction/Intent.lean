import MoveTx.Transaction.Binary

/-!
# Intents

Everything that is signed starts with three bytes that say what it is for, so that a signature under
one purpose is worth nothing under another.
-/

namespace MoveTx

inductive IntentScope
  | transactionData
  | transactionEffects
  | checkpointSummary
  | personalMessage
  deriving DecidableEq

structure Intent where
  scope : IntentScope
  version : UInt8
  application : UInt8
  deriving DecidableEq

def IntentScope.tag : IntentScope → UInt8
  | transactionData => 0
  | transactionEffects => 1
  | checkpointSummary => 2
  | personalMessage => 3

def IntentScope.all : List IntentScope :=
  [transactionData, transactionEffects, checkpointSummary, personalMessage]

def IntentScope.ofTag? (tag : UInt8) : Option IntentScope :=
  all.find? fun s => s.tag == tag

namespace Intent

def transaction : Intent := ⟨.transactionData, 0, 0⟩

def personalMessage : Intent := ⟨.personalMessage, 0, 0⟩

def bytes (i : Intent) : Bytes :=
  [i.scope.tag, i.version, i.application]

/-- The intent and the value it is declared for. -/
def message {α : Type} [Codec α] (i : Intent) (value : α) : Bytes :=
  i.bytes ++ encode value

/-- The hash of the intent and a binary form. This is what gets signed. -/
def digest (i : Intent) (bs : Bytes) : Bytes32 :=
  Blake2b.hash (i.bytes ++ bs)

end Intent

end MoveTx
