import MoveTx.Chain.Coin

/-!
# Choosing gas coins

Gas is paid with the first coin that covers the budget, or, where coins may be merged, with the fewest
coins that cover it together. Coins that the transaction uses already are never chosen.
-/

namespace MoveTx

/-- The greatest number of coins that pay for one transaction. -/
def maxGasCoins : Nat := 256

/-- Why there is nothing to pay with. -/
inductive GasFault
  | noSingleCoin (budget : UInt64) (count total : Nat)
  | totalTooSmall (total : Nat) (budget : UInt64)
  /-- The coin asked for is an input of the transaction. -/
  | coinInUse (id : Address)
  | coinNotFound (id : Address)
  | coinTooSmall (id : Address) (balance budget : UInt64)
  deriving DecidableEq

def GasFault.message : GasFault → String
  | noSingleCoin budget count total =>
    s!"no single coin covers budget {budget.toNat} ({count} unused coins, {total} total)"
  | totalTooSmall total budget =>
    s!"unused coins total {total} (using at most {maxGasCoins}), below budget {budget.toNat}"
  | coinInUse id => "gas coin " ++ id.text ++ " is also a transaction input"
  | coinNotFound id => "gas coin " ++ id.text ++ " is not a SUI coin owned by the gas owner"
  | coinTooSmall id balance budget =>
    "gas coin " ++ id.text ++ s!" holds {balance.toNat}, below budget {budget.toNat}"

namespace Gas

def totalBalance : List Coin → Nat
  | [] => 0
  | c :: rest => c.balance.toNat + totalBalance rest

/-- Coins that the transaction does not use. -/
def unused (coins : List Coin) (inUse : List Address) : List Coin :=
  coins.filter fun c => !inUse.contains c.id

/-- Whether `a` is taken before `b`: the greater balance, and of equal ones the smaller id. -/
def precedes (a b : Coin) : Bool :=
  b.balance < a.balance || (a.balance == b.balance && a.id.before b.id)

/-- Puts a coin in front of the first that it does not have to follow. -/
def insertCoin (c : Coin) : List Coin → List Coin
  | [] => [c]
  | d :: rest => if precedes d c then d :: insertCoin c rest else c :: d :: rest

/-- Coins by descending balance, and by ascending id where balances are equal. -/
def largestFirst (coins : List Coin) : List Coin :=
  coins.foldr insertCoin []

/-- The shortest initial part of the coins that covers a budget. It has one coin at least. -/
def cover? (budget : Nat) : List Coin → Option (List Coin)
  | [] => none
  | c :: rest =>
    if budget ≤ c.balance.toNat then some [c]
    else (cover? (budget - c.balance.toNat) rest).map (c :: ·)

/-- Chooses coins that cover the budget, several of them only if `merge` is set. -/
def select (coins : List Coin) (budget : UInt64) (inUse : List Address) (merge : Bool) :
    Except GasFault (List ObjectRef) :=
  let coins := unused coins inUse
  match coins.find? fun c => budget ≤ c.balance with
  | some c => .ok [c.ref]
  | none =>
    if merge then
      match cover? budget.toNat ((largestFirst coins).take maxGasCoins) with
      | some chosen => .ok (chosen.map Coin.ref)
      | none => .error (.totalTooSmall (totalBalance coins) budget)
    else .error (.noSingleCoin budget coins.length (totalBalance coins))

/-- Takes the coin `id`, which must be unused and cover the budget. -/
def explicit (coins : List Coin) (id : Address) (budget : UInt64) (inUse : List Address) :
    Except GasFault (List ObjectRef) :=
  if inUse.contains id then .error (.coinInUse id)
  else
    match coins.find? fun c => c.id == id with
    | none => .error (.coinNotFound id)
    | some c =>
      if c.balance < budget then .error (.coinTooSmall id c.balance budget) else .ok [c.ref]

end Gas

end MoveTx
