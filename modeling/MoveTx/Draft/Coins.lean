import MoveTx.Draft.Calls

/-!
# Coins

Steps that split, merge, send and stake coins.
-/

namespace MoveTx

namespace Draft

/-- Splits coins of the given amounts off a coin. The result has one coin for each amount. -/
def split (coin : CallValue) (amounts : List UInt64) : DraftStep Argument := do
  let coin ← lowerObject coin none
  let amounts ← amounts.mapM fun amount => pureInput (.ofU64 amount)
  append (.splitCoins coin amounts)

/-- Splits coins off a coin and gives the handle of each. -/
def splitCoin (coin : CallValue) (amounts : List UInt64) : DraftStep (List Argument) := do
  let result ← split coin amounts
  return (List.range amounts.length).map result.nested

def mergeCoins (destination : CallValue) (sources : List CallValue) : DraftStep Argument := do
  let destination ← lowerObject destination none
  let sources ← lowerObjects sources
  append (.mergeCoins destination sources)

def transferObjects (objects : List CallValue) (recipient : Address) : DraftStep Argument := do
  let objects ← lowerObjects objects
  let recipient ← addressInput recipient
  append (.transferObjects objects recipient)

/-- A vector of items. Items that are pure become inputs of their own. -/
def makeMoveVec (type : Option TypeTag) (items : List CallValue) : DraftStep Argument := do
  let elements ← items.mapM fun item => lower item none
  onBuilder (Builder.makeMoveVec type elements)

/-- Splits a coin into `count` coins of equal value, which the sender keeps. -/
def splitCoinEqual (coin : CallValue) (count : UInt64) (type : TypeTag) : DraftStep Argument := do
  let coin ← lowerObject coin none
  let count ← pureInput (.ofU64 count)
  callDirectly divideAndKeep [type] [coin, count]

/-! ### Paying -/

/-- The coin to pay from, which is the gas coin when none is given. -/
def sourceCoin : Option CallValue → DraftStep Argument
  | some coin => lowerObject coin none
  | none => return .gasCoin

/-- An amount of a coin, or all of it. -/
def partOf (coin : Argument) : Option UInt64 → DraftStep Argument
  | some amount => do
    let result ← split (.argument coin) [amount]
    return result.nested 0
  | none => return coin

/-- Sends an amount of a coin, or all of it. -/
def transferSui (recipient : Address) (source : Option CallValue) (amount : Option UInt64) :
    DraftStep Argument := do
  let coin ← sourceCoin source
  let object ← partOf coin amount
  let recipient ← addressInput recipient
  append (.transferObjects [object] recipient)

/-- Merges coins into the first of them. Without coins, this is the gas coin. -/
def mergeIntoFirst (coins : List CallValue) : DraftStep Argument := do
  match ← lowerObjects coins with
  | [] => return .gasCoin
  | [coin] => return coin
  | coin :: rest =>
    let _ ← append (.mergeCoins coin rest)
    return coin

/-- Sends the results of a split to recipients, beginning with the result at `index`. -/
def sendEach (result : Argument) : (index : Nat) → List Address → DraftStep Unit
  | _, [] => return ()
  | index, recipient :: rest => do
    let recipient ← addressInput recipient
    let _ ← append (.transferObjects [result.nested index] recipient)
    sendEach result (index + 1) rest

/-- Pays to each recipient the amount at its place, out of the coins merged into one. -/
def paySui (recipients : List Address) (amounts : List UInt64) (coins : List CallValue) :
    DraftStep Argument := do
  let coin ← mergeIntoFirst coins
  let result ← split (.argument coin) amounts
  sendEach result 0 recipients
  return result

/-- Merges coins into the gas coin and sends all of it. -/
def payAllSui (recipient : Address) (coins : List CallValue) : DraftStep Argument := do
  if !coins.isEmpty then
    let sources ← lowerObjects coins
    let _ ← append (.mergeCoins .gasCoin sources)
  let recipient ← addressInput recipient
  append (.transferObjects [.gasCoin] recipient)

/-! ### Staking -/

/-- The object that keeps the state of the system, which has been shared since its first version. -/
def systemState : CallValue :=
  .shared ⟨.systemState, 1, true⟩

/-- Stakes coins with a validator, or an amount of them. -/
def stake (coins : List CallValue) (validator : Address) (amount : Option UInt64) :
    DraftStep Argument := do
  let system ← lowerObject systemState none
  let coins ← lowerObjects coins
  let stakes ← onBuilder (Builder.makeMoveVec (some StructTag.gasCoin.toTypeTag) coins)
  let amount ← pureInput (.ofOption (amount.map PureValue.ofU64))
  let validator ← addressInput validator
  callDirectly requestStake [] [system, stakes, amount, validator]

/-- Withdraws what was staked. -/
def unstake (staked : CallValue) : DraftStep Argument := do
  let system ← lowerObject systemState none
  let staked ← lowerObject staked none
  callDirectly requestWithdrawal [] [system, staked]

end Draft

end MoveTx
