import MoveTx.Chain.Channel
import MoveTx.Session.Basic

/-!
# Sessions with a chain

Steps that ask the chain for something. They run on a session and the state of a channel together.
-/

namespace MoveTx

/-- A session and the state of the channel that it talks to. -/
structure Online (σ : Type) where
  session : Session
  chain : σ

/-- An operation that may talk to the chain. -/
abbrev OnlineStep (σ α : Type) := EStateM ClientError (Online σ) α

namespace Session

variable {σ α : Type}

/-- A step that leaves the chain alone. -/
def offline (step : SessionStep α) : OnlineStep σ α := fun s =>
  match step s.session with
  | .ok a session => .ok a { s with session }
  | .error e session => .error e { s with session }

/-- A request that leaves the session alone. -/
def request (r : ChainRequest σ α) : OnlineStep σ α := fun s =>
  match r s.chain with
  | .ok a chain => .ok a { s with chain }
  | .error e chain => .error (.chain e) { s with chain }

def current : OnlineStep σ Session := do
  return (← get).session

/-- The value of a computation, or its error. -/
def ofExcept {ε : Type} (wrap : ε → ClientError) : Except ε α → OnlineStep σ α
  | .ok a => return a
  | .error e => throw (wrap e)

/-! ### Calls -/

/-- The signature of a function. Each is looked up once. -/
def function (c : Channel σ) (package : Address) (module function : String) :
    OnlineStep σ MoveFunction := do
  let name := MoveFunction.fullName package module function
  match (← current).functions.find? fun entry => entry.1 == name with
  | some (_, f) => return f
  | none =>
    let f ← request (c.function package module function)
    offline (modify fun s => { s with functions := (name, f) :: s.functions })
    return f

/-- Calls the function that a text names, with values lowered against its signature. Gives the handles
of the returned values. -/
def moveCall (c : Channel σ) (target : String) (values : List CallValue)
    (typeArguments : List TypeTag) : OnlineStep σ (List Argument) := do
  offline ensureOpen
  let t ← ofExcept .text (CallTarget.parse target)
  let f ← function c t.package t.module.name t.function.name
  ofExcept .builder (f.checkCounts target values.length typeArguments.length)
  offline (edit (Draft.call t f values typeArguments))

end Session

end MoveTx
