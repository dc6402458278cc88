import MoveTx.Chain.Channel

/-!
# Channels that misbehave

`Channel.withFaults` is a channel with faults that can be turned on, to see how a client copes with
requests that fail and with answers that are wrong.
-/

namespace MoveTx

/-- A way in which a channel misbehaves. -/
inductive ChannelFault
  /-- The request fails before the channel sees it. -/
  | price
  | objects
  | function
  | coins
  | dryRun
  | execute
  /-- The last object is left out. -/
  | shortReads
  | reversedReads
  /-- Objects are said to be too new. -/
  | staleReads
  | missingVersions
  /-- Pages do not say where the next one begins. -/
  | lostCursor
  | dryRunFailure
  deriving DecidableEq

/-- The names of the faults. -/
def ChannelFault.names : List (String × ChannelFault) :=
  [("price", .price), ("objects", .objects), ("function", .function), ("coins", .coins),
    ("dry_run", .dryRun), ("execute", .execute), ("short_reads", .shortReads),
    ("reversed_reads", .reversedReads), ("stale_reads", .staleReads),
    ("missing_versions", .missingVersions), ("lost_cursor", .lostCursor),
    ("dry_run_failure", .dryRunFailure)]

def ChannelFault.ofName? (s : String) : Option ChannelFault :=
  (names.find? fun entry => entry.1 == s).map (·.2)

/-- A state with the faults that are on. -/
structure Faulty (σ : Type) where
  faults : List ChannelFault
  state : σ

namespace Faulty

variable {σ α : Type}

def has (f : Faulty σ) (fault : ChannelFault) : Bool :=
  f.faults.contains fault

/-- A request of the state inside. -/
def lift (r : ChainRequest σ α) : ChainRequest (Faulty σ) α := fun f =>
  match r f.state with
  | .ok a s => .ok a { f with state := s }
  | .error e s => .error e { f with state := s }

/-- A request that fails when a fault is on. -/
def liftUnless (fault : ChannelFault) (r : ChainRequest σ α) : ChainRequest (Faulty σ) α := do
  if (← get).has fault then throw (.transport "connection reset") else lift r

/-- The answers to a request for objects, as the faults leave them. -/
def spoilReads (f : Faulty σ) (ids : List Address) (answers : List ObjectStatus) : List ObjectStatus :=
  let answers := if f.has .shortReads then answers.dropLast else answers
  let answers := if f.has .reversedReads then answers.reverse else answers
  let answers := if f.has .staleReads then
      (ids.take answers.length).map fun id => .tooNew id 9 (some 3)
    else answers
  if f.has .missingVersions then (ids.take answers.length).map fun id => .noVersion id 7 else answers

def spoilPage (f : Faulty σ) (p : CoinPage) : CoinPage :=
  if f.has .lostCursor then { p with nextCursor := none } else p

def spoilDryRun (f : Faulty σ) (r : DryRun) : DryRun :=
  if f.has .dryRunFailure then ⟨{ r.effects with status := .failure "out of gas" }⟩ else r

end Faulty

/-- The channel with faults. Requests for a single object are never affected. -/
def Channel.withFaults {σ : Type} (c : Channel σ) : Channel (Faulty σ) where
  gasPrice := Faulty.liftUnless .price c.gasPrice
  object id query := Faulty.lift (c.object id query)
  objects ids query := do
    let answers ← Faulty.liftUnless .objects (c.objects ids query)
    return (← get).spoilReads ids answers
  function package module function := Faulty.liftUnless .function (c.function package module function)
  coins owner type cursor limit := do
    let page ← Faulty.liftUnless .coins (c.coins owner type cursor limit)
    return (← get).spoilPage page
  dryRun tx := do
    let r ← Faulty.liftUnless .dryRun (c.dryRun tx)
    return (← get).spoilDryRun r
  execute tx signatures options := Faulty.liftUnless .execute (c.execute tx signatures options)

end MoveTx
