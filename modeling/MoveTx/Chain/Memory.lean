import MoveTx.Chain.Channel
import MoveTx.Text.Base64
import MoveTx.Transaction.Intent

/-!
# A chain in memory

A chain that holds what it was given: objects, coins and functions. It answers dry runs with a set cost,
and records every transaction that it accepts. No transaction is accepted twice.
-/

namespace MoveTx

/-- A transaction that was accepted. -/
structure Submission where
  transaction : String
  signatures : List String
  options : ExecuteOptions
  digest : Digest

structure MemoryChain where
  gasPrice : UInt64
  objects : List (Address × ObjectStatus)
  /-- Coins with their owners, in the order in which they were added. -/
  coins : List (Address × Coin)
  /-- Signatures by the full name of the function. -/
  functions : List (String × MoveFunction)
  cost : GasCost
  /-- The error with which transactions fail, if they do. -/
  failure : Option String
  pageSize : Nat
  functionLookups : Nat
  /-- The transactions that were tried, in order. -/
  dryRuns : List String
  submissions : List Submission

namespace MemoryChain

def empty : MemoryChain where
  gasPrice := 1000
  objects := []
  coins := []
  functions := []
  cost := ⟨1000000, 2000000, 1000000, 0⟩
  failure := none
  pageSize := 50
  functionLookups := 0
  dryRuns := []
  submissions := []

/-! ### What the chain holds -/

def setObject (m : MemoryChain) (s : ObjectStatus) : MemoryChain :=
  { m with objects := (s.id, s) :: m.objects }

def addObject (m : MemoryChain) (o : LiveObject) : MemoryChain :=
  m.setObject (.live o)

def deleteObject (m : MemoryChain) (r : ObjectRef) : MemoryChain :=
  m.setObject (.deleted r)

/-- Adds a coin, which can be looked up as an object too. -/
def addCoin (m : MemoryChain) (owner : Address) (c : Coin) : MemoryChain :=
  let object : LiveObject := {
    id := c.id
    version := c.version
    digest := c.digest
    type := some ("0x2::coin::Coin<" ++ c.type ++ ">")
    owner := .account owner
    previousTransaction := c.previousTransaction }
  { m.addObject object with coins := m.coins ++ [(owner, c)] }

def addFunction (m : MemoryChain) (package : Address) (module function : String) (f : MoveFunction) :
    MemoryChain :=
  { m with functions := (MoveFunction.fullName package module function, f) :: m.functions }

def setGasPrice (m : MemoryChain) (price : UInt64) : MemoryChain :=
  { m with gasPrice := price }

/-- Sets the charge for every transaction. -/
def setCost (m : MemoryChain) (cost : GasCost) : MemoryChain :=
  { m with cost }

/-- Makes transactions fail with an error from now on. -/
def failWith (m : MemoryChain) (error : String) : MemoryChain :=
  { m with failure := some error }

/-- Sets the size of pages, which is one at least. -/
def setPageSize (m : MemoryChain) (n : Nat) : MemoryChain :=
  { m with pageSize := max n 1 }

/-! ### Answers -/

/-- What is known about an object, by the last thing said of it. -/
def status (m : MemoryChain) (id : Address) : ObjectStatus :=
  match m.objects.find? fun entry => entry.1 == id with
  | some (_, s) => s
  | none => .missing id

/-- Coins of an owner and a type. -/
def coinsOf (m : MemoryChain) (owner : Address) (type : String) : List Coin :=
  (m.coins.filter fun entry => entry.1 == owner && entry.2.type == type).map (·.2)

/-- The place that a cursor names: digits, with an optional plus sign, below `2 ^ 64`. -/
def cursorPlace? (cursor : String) : Option Nat :=
  let digits := match cursor.toList with
    | '+' :: rest => rest
    | cs => cs
  if digits.isEmpty || !digits.all Char.isDigit then none
  else
    let n := digits.foldl (fun n c => 10 * n + (c.toNat - '0'.toNat)) 0
    if n < UInt64.size then some n else none

/-- The page of `coins` from `start` on with at most `limit` of them. -/
def page (coins : List Coin) (start limit : Nat) : CoinPage :=
  let stop := min (start + limit) coins.length
  let hasNext := stop < coins.length
  ⟨(coins.drop start).take limit, if hasNext then some (toString stop) else none, hasNext⟩

def listCoins (m : MemoryChain) (owner : Address) (type cursor : Option String) (limit : Option Nat) :
    Except ChainError CoinPage :=
  let coins := m.coinsOf owner (type.getD Coin.gasType)
  let limit := max (limit.getD m.pageSize) 1
  match cursor with
  | none => .ok (page coins 0 limit)
  | some c =>
    match cursorPlace? c with
    | some start => .ok (page coins start limit)
    | none => .error (.undecodable (.badCursor c))

/-- The transaction of a base-64 text. -/
def decodeTransaction (tx : String) : Except ChainError TransactionData :=
  match Base64.decode? tx with
  | none => .error (.undecodable .notBase64)
  | some bs =>
    match Codec.decodeAll bs with
    | .ok data => .ok data
    | .error e => .error (.undecodable (.malformed e))

/-- What running a transaction does, for the charge that is set. -/
def effects (m : MemoryChain) (status : ExecutionStatus) (digest : Digest) (mutated : List ObjectRef) :
    Effects :=
  ⟨status, m.cost, digest, [], mutated, []⟩

def isRecorded (m : MemoryChain) (digest : Digest) : Bool :=
  m.submissions.any fun s => s.digest == digest

/-! ### Requests -/

def ofExcept {α : Type} : Except ChainError α → ChainRequest MemoryChain α
  | .ok a => return a
  | .error e => throw e

def lookUpFunction (package : Address) (module function : String) :
    ChainRequest MemoryChain MoveFunction := do
  modify fun m => { m with functionLookups := m.functionLookups + 1 }
  let name := MoveFunction.fullName package module function
  match (← get).functions.find? fun entry => entry.1 == name with
  | some (_, f) => return f
  | none => throw (.functionNotFound name)

/-- Tries a transaction and keeps its text. -/
def dryRun (tx : String) : ChainRequest MemoryChain DryRun := do
  let data ← ofExcept (decodeTransaction tx)
  modify fun m => { m with dryRuns := m.dryRuns ++ [tx] }
  return ⟨(← get).effects .success data.digest []⟩

/-- Accepts a signed transaction that was not accepted before. -/
def execute (tx : String) (signatures : List String) (options : ExecuteOptions) :
    ChainRequest MemoryChain ExecutionResult := do
  let data ← ofExcept (decodeTransaction tx)
  if signatures.isEmpty then throw (.execution .notSigned)
  let m ← get
  if m.isRecorded data.digest then throw (.execution (.alreadyExecuted data.digest))
  let submission : Submission := ⟨tx, signatures, options, data.digest⟩
  set { m with submissions := m.submissions ++ [submission] }
  let status := match m.failure with
    | some error => .failure error
    | none => .success
  let effects := m.effects status data.digest data.gas.payment
  return ⟨data.digest, if options.showEffects then some effects else none, some true⟩

/-- The chain as a channel. -/
def channel : Channel MemoryChain where
  gasPrice := do return (← get).gasPrice
  object id _ := do return (← get).status id
  objects ids _ := do return ids.map (← get).status
  function := lookUpFunction
  coins owner type cursor limit := do ofExcept ((← get).listCoins owner type cursor limit)
  dryRun := dryRun
  execute := execute

end MemoryChain

end MoveTx
