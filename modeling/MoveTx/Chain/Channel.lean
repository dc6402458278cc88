import MoveTx.Chain.Coin
import MoveTx.Chain.Execution
import MoveTx.Chain.MoveFunction

/-!
# Channels to the chain

A channel answers requests and may change while it does. Everything that talks to the chain takes a
channel over any type of states, so that nothing is assumed about its answers.
-/

namespace MoveTx

/-- A request to a channel whose state is of type `σ`. -/
abbrev ChainRequest (σ α : Type) := EStateM ChainError σ α

structure Channel (σ : Type) where
  gasPrice : ChainRequest σ UInt64
  object : Address → ObjectQuery → ChainRequest σ ObjectStatus
  /-- The status of each object, in the order asked. -/
  objects : List Address → ObjectQuery → ChainRequest σ (List ObjectStatus)
  /-- The signature of a function, by package, module and name. -/
  function : Address → String → String → ChainRequest σ MoveFunction
  /-- A page of an owner's coins of a type, from a cursor on and up to a limit. -/
  coins : Address → Option String → Option String → Option Nat → ChainRequest σ CoinPage
  /-- Tries the base-64 text of a transaction. -/
  dryRun : String → ChainRequest σ DryRun
  /-- Runs the base-64 text of a transaction under signatures. -/
  execute : String → List String → ExecuteOptions → ChainRequest σ ExecutionResult

namespace Channel

variable {σ : Type}

/-- The bound on the pages of a listing, with which it ends on every channel. -/
def maxPages : Nat := UInt64.size

/-- The coins from a cursor on, in at most `pages` pages. A client has no such bound. It never gives the
fault of a listing that does not end, but asks for the next page however many there were. -/
def coinsFrom (c : Channel σ) (owner : Address) (type : Option String) :
    (pages : Nat) → (cursor : Option String) → ChainRequest σ (List Coin)
  | 0, _ => throw (.transport "coin listing does not end")
  | pages + 1, cursor => do
    let page ← c.coins owner type cursor none
    if page.hasNext && page.nextCursor.isSome then
      let rest ← coinsFrom c owner type pages page.nextCursor
      return page.coins ++ rest
    else return page.coins

/-- All coins of an owner, page by page. -/
def allCoins (c : Channel σ) (owner : Address) (type : Option String) : ChainRequest σ (List Coin) :=
  c.coinsFrom owner type maxPages none

end Channel

end MoveTx
