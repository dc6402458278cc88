import MoveTx.Session.Online
import MoveTx.Text.Base64

/-!
# Finalizing

To finalize a session is to look up its objects, to find a price and a budget, to choose coins that pay,
and to close the builder. If any of it fails, the session stays as it was, but for the price.
-/

namespace MoveTx

/-- The budget under which a transaction is tried. -/
def dryRunBudget : UInt64 := 50000000000

/-- Supplies the references of objects, in the order of their ids, out of the answers about them. -/
def Draft.supply (d : Draft) : List Address → List ObjectStatus → Except ClientError Draft
  | id :: ids, status :: rest => do
    let object ← status.object.mapError .chain
    if object.id ≠ id then throw (.chain (.undecodable (.otherObject id object.id)))
    match Draft.onBuilder (Builder.resolve (object.toArg (d.wantsMutable id))) d with
    | .ok () d => supply d ids rest
    | .error e _ => throw (.builder e)
  | _, _ => .ok d

namespace Session

variable {σ : Type}

/-- The draft with the references of all objects, which are asked for together. -/
def resolve (c : Channel σ) (d : Draft) : OnlineStep σ Draft := do
  let ids := d.builder.unresolvedIds
  if ids.isEmpty then return d
  let answers ← request (c.objects ids {})
  if answers.length ≠ ids.length then
    throw (.chain (.undecodable (.objectCount ids.length answers.length)))
  ofExcept id (d.supply ids answers)

/-- The price of gas, which is asked for once. -/
def price (c : Channel σ) : OnlineStep σ UInt64 := do
  match (← current).gasPrice with
  | some price => return price
  | none =>
    let price ← request c.gasPrice
    offline (modify fun s => { s with gasPrice := some price })
    return price

/-- The data of a transaction on the terms of the session. -/
def data (s : Session) (t : ProgrammableTransaction) (payment : List ObjectRef)
    (price budget : UInt64) : TransactionData :=
  .programmable s.sender t ⟨payment, s.gasOwner, price, budget⟩ s.expiration

/-- The transaction that is tried to find a budget. Nothing pays for it. -/
def probe (s : Session) (d : Draft) (price : UInt64) : Except BuilderError TransactionData := do
  let kind ← d.builder.inspect
  kind.transaction.validate
  return s.data kind.transaction [] price dryRunBudget

/-- The charge for the draft, found by trying it. -/
def estimate (c : Channel σ) (d : Draft) (price : UInt64) : OnlineStep σ UInt64 := do
  let s ← current
  let probe ← ofExcept .builder (s.probe d price)
  let r ← request (c.dryRun (Base64.encode (encode probe)))
  match r.effects.status with
  | .success => return r.effects.gasUsed.total
  | .failure error => throw (.chain (.execution (.dryRunFailed error)))

/-- The budget that is given, or configured, or found by trying the draft. -/
def budgetFor (c : Channel σ) (d : Draft) (price : UInt64) (given : Option UInt64) :
    OnlineStep σ UInt64 := do
  match given <|> (← current).config.defaultBudget with
  | some budget => return budget
  | none => estimate c d price

/-- The coins that pay: the one asked for, or those that are chosen. -/
def payment (s : Session) (d : Draft) (coins : List Coin) (budget : UInt64) (coin : Option Address) :
    Except GasFault (List ObjectRef) :=
  match coin with
  | some id => Gas.explicit coins id budget d.builder.objectsInUse
  | none => Gas.select coins budget d.builder.objectsInUse s.config.mergeGas

/-- Finalizes the session with a budget and a gas coin, where they are given. -/
def finalize (c : Channel σ) (budget : Option UInt64) (coin : Option Address) :
    OnlineStep σ TransactionData := do
  offline ensureOpen
  let draft ← resolve c (← current).draft
  let price ← price c
  let budget ← budgetFor c draft price budget
  let s ← current
  let coins ← request (c.allCoins s.gasOwner none)
  let payment ← ofExcept .gas (s.payment draft coins budget coin)
  match Draft.onBuilder Builder.finalize draft with
  | .error e _ => throw (.builder e)
  | .ok t draft =>
    let data := s.data t payment price budget
    offline (set { s with draft, finalized := some data })
    return data

/-- The data of the session, which is finalized without further wishes if it was not before. -/
def finalizedData (c : Channel σ) : OnlineStep σ TransactionData := do
  match (← current).finalized with
  | some data => return data
  | none => finalize c none none

end Session

end MoveTx
