import MoveTx.Proofs.Session.Call
import MoveTx.Proofs.Session.Mutability
import MoveTx.Proofs.Session.Price

/-!
# Building is atomic

A call that builds on a session, or finalizes it, is done in full or not at all. A session on which such
a call failed may know the price of gas or one more function, and is as it was otherwise.
-/

namespace MoveTx.Session
open Step

variable {σ α : Type}

/-! ### Steps that are done in full or not at all -/

/-- A step that leaves a session as it is when it fails. -/
def Atomic (x : SessionStep α) : Prop :=
  ∀ s e t, x s = .error e t → t = s

theorem atomic_edit (x : DraftStep α) : Atomic (edit x) := by
  intro s e t run
  rcases edit_cases x s with ⟨_, failed⟩ | ⟨a, d, -, -, -, done⟩
  · exact (EStateM.Result.error.inj (failed.symm.trans run)).2.symm
  · cases done.symm.trans run

theorem atomic_modify (f : Session → Session) : Atomic (ensureOpen >>= fun _ => modify f) := by
  intro s e t run
  rcases modify_cases f s with ⟨_, failed⟩ | ⟨-, -, done⟩
  · exact (EStateM.Result.error.inj (failed.symm.trans run)).2.symm
  · cases done.symm.trans run

theorem atomic_build (op : BuildOp) : Atomic op.step := by
  intro s e t run
  rcases BuildOp.builds_step op op.takes_sealed s with ⟨_, failed⟩ | ⟨a, d, -, -, -, done⟩
  · exact (EStateM.Result.error.inj (failed.symm.trans run)).2.symm
  · cases done.symm.trans run

theorem Atomic.offline {x : SessionStep α} (atomic : Atomic x) {s t : Online σ} {e : ClientError}
    (run : Session.offline x s = .error e t) : t = s := by
  obtain ⟨session, failed, rfl⟩ := offline_error_iff.mp run
  rw [atomic s.session e session failed]

/-- Whether a session is open is found out without a change to it. -/
theorem ensureOpen_stays (s : Online σ) : after ((offline ensureOpen : OnlineStep σ Unit) s) = s := by
  rcases ensureOpen_cases s.session with ⟨e, closed⟩ | ⟨-, -, isOpen⟩
  · rw [offline_of_error closed]
    rfl
  · rw [offline_ok_iff.mpr ⟨s.session, isOpen, rfl⟩]
    rfl

/-! ### What a failed call may have learnt -/

/-- Nothing is different but a price that was not known before, or one more function. -/
structure Spared (s t : Session) : Prop extends Frame s t where
  entry : t.functions = s.functions ∨
    ∃ name f, s.functions.find? (fun entry => entry.1 == name) = none ∧
      t.functions = (name, f) :: s.functions

theorem spared_refl (s : Session) : s.Spared s :=
  ⟨frame_refl s, Or.inl rfl⟩

/-- A function is asked for only when it is not known. -/
theorem function_run (c : Channel σ) (package : Address) (module name : String) (s : Online σ) :
    function c package module name s =
      match s.session.functions.find? fun entry => entry.1 == MoveFunction.fullName package module name with
      | some (_, f) => .ok f s
      | none =>
        match c.function package module name s.chain with
        | .ok f chain => .ok f ⟨{ s.session with
            functions := (MoveFunction.fullName package module name, f) :: s.session.functions }, chain⟩
        | .error e chain => .error (.chain e) { s with chain := chain } := by
  have run : function c package module name s =
      (match s.session.functions.find? fun entry => entry.1 == MoveFunction.fullName package module name with
      | some (_, f) => return f
      | none => do
        let f ← request (c.function package module name)
        offline (modify fun s => { s with
          functions := (MoveFunction.fullName package module name, f) :: s.functions })
        return f : OnlineStep σ MoveFunction) s := rfl
  rw [run]
  cases s.session.functions.find? fun entry => entry.1 == MoveFunction.fullName package module name with
  | some entry => rfl
  | none =>
    cases answer : c.function package module name s.chain with
    | ok f chain => exact bind_of_ok (request_ok_iff.mpr ⟨chain, answer, rfl⟩)
    | error e chain =>
      apply bind_of_error
      unfold request
      rw [answer]

/-- A function that is looked up is added if it was not known. -/
theorem spared_function (c : Channel σ) (package : Address) (module name : String) :
    Moves Spared (function c package module name) := by
  intro s
  rw [function_run]
  cases unknown : s.session.functions.find? fun entry =>
      entry.1 == MoveFunction.fullName package module name with
  | some entry => exact spared_refl s.session
  | none =>
    cases c.function package module name s.chain with
    | error e chain => exact spared_refl s.session
    | ok f chain => exact ⟨(learns_frame c).function s.session _, Or.inr ⟨_, f, unknown, rfl⟩⟩

/-- A session that is not finalized has asked for no functions. -/
theorem functions_finalize (c : Channel σ) (budget : Option UInt64) (coin : Option Address) :
    Fails (fun s t => t.functions = s.functions) (finalize c budget coin) := by
  have along : Along fun s t : Session => t.functions = s.functions :=
    ⟨fun _ => rfl, fun first next => next.trans first⟩
  apply fails_finalize along
  intro s
  rw [price_run]
  cases s.session.gasPrice with
  | some known => rfl
  | none => cases c.gasPrice s.chain <;> rfl

/-- To finalize changes nothing but the price until it is done. -/
theorem spared_finalize (c : Channel σ) (budget : Option UInt64) (coin : Option Address) :
    Fails Spared (finalize c budget coin) := by
  intro s e t run
  exact ⟨fails_finalize along_frame (moves_price (learns_frame c)) budget coin s e t run,
    Or.inl (functions_finalize c budget coin s e t run)⟩

/-- A call on the chain's signature of a function keeps the signature when the rest of it fails. -/
theorem spared_moveCall (c : Channel σ) (target : String) (values : List CallValue)
    (typeArguments : List TypeTag) : Fails Spared (moveCall c target values typeArguments) := by
  intro s e t run
  unfold moveCall at run
  have stays := ensureOpen_stays s
  rcases bind_error_iff.mp run with failed | ⟨_, opened, isOpen, parsing⟩
  · rw [failed] at stays
    exact stays ▸ spared_refl s.session
  rw [isOpen] at stays
  obtain rfl : opened = s := stays
  rcases bind_error_iff.mp parsing with failed | ⟨call, _, parsed, finding⟩
  · obtain ⟨_, -, -, rfl⟩ := ofExcept_error_iff.mp failed
    exact spared_refl _
  obtain ⟨-, rfl⟩ := ofExcept_ok_iff.mp parsed
  rcases bind_error_iff.mp finding with failed | ⟨f, u, found, counting⟩
  · exact (spared_function c _ _ _).fails _ e t failed
  -- Whatever fails from here on leaves the session that knows the function.
  have learnt := (spared_function c _ _ _).ok found
  rcases bind_error_iff.mp counting with failed | ⟨_, _, counted, editing⟩
  · obtain ⟨_, -, -, rfl⟩ := ofExcept_error_iff.mp failed
    exact learnt
  obtain ⟨-, rfl⟩ := ofExcept_ok_iff.mp counted
  rw [(atomic_edit _).offline editing]
  exact learnt

/-- Building is atomic. If a call that builds on a session, sets its terms or finalizes it gives an error,
then the draft, the notes of uses, the expiration, the finalized data and the mark of submission are what
they were, and at most a price or a function was learnt. -/
theorem call_atomic (c : Channel σ) {call : Call} (building : call.NeedsOpen) {s t : Online σ}
    {e : ClientError} (run : call.step c s = .error e t) : s.session.Spared t.session := by
  have kept : t = s → s.session.Spared t.session := fun same => same ▸ spared_refl s.session
  cases call with
  | customUpgrade protocol p id cap => exact kept ((atomic_edit _).offline (map_error_iff.mp run))
  | op o =>
    cases o with
    | setGasPrice price => exact kept ((atomic_modify _).offline (map_error_iff.mp run))
    | setExpiration expiration => exact kept ((atomic_modify _).offline (map_error_iff.mp run))
    | build op => exact kept ((atomic_build op).offline (map_error_iff.mp run))
    | moveCall target values typeArguments =>
      exact spared_moveCall c target values typeArguments s e t (map_error_iff.mp run)
    | finalize budget coin => exact spared_finalize c budget coin s e t (map_error_iff.mp run)
    | _ => exact building.elim

/-- A call that wants the board mutably and then takes it for an object that somebody owns. -/
def misusesBoard : Call :=
  .op (.moveCall "0x5::board::write"
    [.seq [.shared ⟨.ofNat 768, 7, true⟩, .object ⟨.ofNat 768, 1, .zero⟩]] [])

/-- A session that reads the board. -/
def boardRead : Online Unit :=
  after (readsBoard.step boards ⟨start {}, ()⟩)

/-- The call fails after it has made the board mutable in its copy of the draft. -/
theorem misusesBoard_atomic :
    ∃ e t, misusesBoard.step boards boardRead = .error e t ∧ boardRead.session.Spared t.session := by
  have building : misusesBoard.NeedsOpen := trivial
  have fails : (match misusesBoard.step boards boardRead with
      | .ok _ _ => false
      | .error _ t => t.session.functions.length == 2) = true := by decide +kernel
  cases run : misusesBoard.step boards boardRead with
  | ok answer t =>
    rw [run] at fails
    cases fails
  | error e t => exact ⟨e, t, rfl, call_atomic boards building run⟩

end MoveTx.Session
