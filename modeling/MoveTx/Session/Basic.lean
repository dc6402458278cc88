import MoveTx.Client.Config
import MoveTx.Draft.Coins
import MoveTx.Draft.Packages

/-!
# Sessions

A session is a transaction under construction for one sender. Every operation that builds works on a
copy of the draft, which is kept only if the operation succeeds. A session that is finalized or was
submitted is closed: it can no longer be built upon.
-/

namespace MoveTx

structure Session where
  config : ClientConfig
  sender : Address
  /-- Pays for gas and signs as well, if there is one. -/
  sponsor : Option Address
  /-- The price of gas, set by the caller or asked of the chain once. -/
  gasPrice : Option UInt64
  draft : Draft
  expiration : Expiration
  /-- Signatures of functions that were looked up, by full name. -/
  functions : List (String × MoveFunction)
  finalized : Option TransactionData
  /-- Whether the transaction was handed to the chain, whatever came of it. -/
  submitted : Bool

/-- An operation on a session that needs no chain. -/
abbrev SessionStep (α : Type) := EStateM ClientError Session α

namespace Session

/-- A session for the active address of a configuration. -/
def start (config : ClientConfig) : Session where
  config := config
  sender := config.activeAddress
  sponsor := none
  gasPrice := none
  draft := .empty
  expiration := .never
  functions := []
  finalized := none
  submitted := false

def withSender (s : Session) (sender : Address) : Session :=
  { s with sender }

def withSponsor (s : Session) (sponsor : Address) : Session :=
  { s with sponsor := some sponsor }

/-- The address whose coins pay for gas. -/
def gasOwner (s : Session) : Address :=
  s.sponsor.getD s.sender

/-- What the transaction does so far. Every input must be resolved. -/
def inspect (s : Session) : Except ClientError TransactionKind :=
  s.draft.builder.inspect.mapError .builder

/-! ### Steps -/

def ensureOpen : SessionStep Unit := do
  let s ← get
  if s.submitted then throw .alreadySubmitted
  else if s.finalized.isSome then throw (.builder .alreadyFinalized)
  else return ()

/-- Changes the draft of an open session, or nothing at all. -/
def edit {α : Type} (step : DraftStep α) : SessionStep α := do
  ensureOpen
  let s ← get
  match step s.draft with
  | .ok a draft =>
    set { s with draft }
    return a
  | .error e _ => throw (.builder e)

/-- Pins the price of gas. -/
def setGasPrice (price : UInt64) : SessionStep Unit := do
  ensureOpen
  modify fun s => { s with gasPrice := some price }

def setExpiration (expiration : Expiration) : SessionStep Unit := do
  ensureOpen
  modify fun s => { s with expiration }

/-! ### Inputs and commands -/

def pure (value : PureValue) : SessionStep Argument :=
  edit (Draft.pureInput value)

/-- Admits a pure value as an input of its own. -/
def uniquePure (value : PureValue) : SessionStep Argument :=
  edit (Draft.onBuilder (Builder.uniquePure value.encoded))

def object (value : CallValue) : SessionStep Argument :=
  edit (Draft.lowerObject value none)

def command (c : Command) : SessionStep Argument :=
  edit (Draft.append c)

def splitCoin (coin : CallValue) (amounts : List UInt64) : SessionStep (List Argument) :=
  edit (Draft.splitCoin coin amounts)

def mergeCoins (destination : CallValue) (sources : List CallValue) : SessionStep Argument :=
  edit (Draft.mergeCoins destination sources)

def transferObjects (objects : List CallValue) (recipient : Address) : SessionStep Argument :=
  edit (Draft.transferObjects objects recipient)

def makeMoveVec (type : Option TypeTag) (items : List CallValue) : SessionStep Argument :=
  edit (Draft.makeMoveVec type items)

/-! ### Conveniences -/

def splitCoinEqual (coin : CallValue) (count : UInt64) (type : TypeTag) : SessionStep Argument :=
  edit (Draft.splitCoinEqual coin count type)

/-- Stakes coins, of which there must be some. -/
def stake (coins : List CallValue) (validator : Address) (amount : Option UInt64) :
    SessionStep Argument :=
  if coins.isEmpty then throw (.builder (.argumentTypeMismatch .nothingToStake))
  else edit (Draft.stake coins validator amount)

def unstake (staked : CallValue) : SessionStep Argument :=
  edit (Draft.unstake staked)

def publicTransfer (object : CallValue) (recipient : Address) (type : TypeTag) :
    SessionStep Argument :=
  edit (Draft.publicTransfer object recipient type)

def transferSui (recipient : Address) (source : Option CallValue) (amount : Option UInt64) :
    SessionStep Argument :=
  edit (Draft.transferSui recipient source amount)

/-- Pays amounts to recipients, of whom there must be some and as many as amounts. -/
def paySui (recipients : List Address) (amounts : List UInt64) (coins : List CallValue) :
    SessionStep Argument :=
  if recipients.isEmpty || recipients.length != amounts.length then
    throw (.builder (.argumentTypeMismatch (.paymentCount recipients.length amounts.length)))
  else edit (Draft.paySui recipients amounts coins)

def payAllSui (recipient : Address) (coins : List CallValue) : SessionStep Argument :=
  edit (Draft.payAllSui recipient coins)

def optionalObject (object : Option CallValue) (type : TypeTag) : SessionStep Argument :=
  edit (Draft.optionalObject object type)

/-! ### Packages -/

def publish (p : CompiledPackage) : SessionStep Argument :=
  edit (Draft.publish p)

/-- Upgrades a package under the policy of the framework. -/
def upgrade (p : CompiledPackage) (id : Address) (cap : CallValue) : SessionStep Argument :=
  edit (Draft.upgrade .framework p id cap)

/-- Upgrades a package as the caller says. -/
def customUpgrade (protocol : UpgradeProtocol) (p : CompiledPackage) (id : Address) (cap : CallValue) :
    SessionStep Argument :=
  edit (Draft.upgrade protocol p id cap)

end Session

end MoveTx
