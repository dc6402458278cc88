import MoveTx.Proofs.Session.Operation

/-!
# Calls

A call is an operation on a session in its most general form: whoever upgrades a package may take any
steps on the builder. A closed session refuses every call that needs an open one, and a call goes only
where its changes may go.
-/

namespace MoveTx
open Step

inductive Call
  | op (op : SessionOp)
  | customUpgrade (protocol : UpgradeProtocol) (p : CompiledPackage) (id : Address) (cap : CallValue)

namespace Call

variable {σ : Type}

def step (c : Channel σ) : Call → OnlineStep σ SessionAnswer
  | op o => o.step c
  | customUpgrade protocol p id cap =>
    (fun handle => .handles [handle]) <$> Session.offline (Session.customUpgrade protocol p id cap)

/-- Calls that build on a session, pin its price, set its expiration or finalize it. -/
def NeedsOpen : Call → Prop
  | op (.setGasPrice _) | op (.setExpiration _) | op (.build _) | op (.moveCall _ _ _)
  | op (.finalize _ _) | customUpgrade _ _ _ _ => True
  | _ => False

/-- Calls that hand a transaction to the chain. -/
def Submits : Call → Prop
  | op o => o.Submits
  | customUpgrade _ _ _ _ => False

/-- Calls that sign a transaction, whatever they do with the signatures. -/
def Signs : Call → Prop
  | op .sign | op (.signMultiSig _ _) | op (.execute _) => True
  | _ => False

/-- Calls that say who sends the transaction or who pays for it. -/
def SetsParty : Call → Prop
  | op (.withSender _) | op (.withSponsor _) => True
  | _ => False

theorem Submits.cases {call : Call} (submits : call.Submits) :
    (∃ t options, call = .op (.submit t options)) ∨ ∃ options, call = .op (.execute options) := by
  cases call with
  | customUpgrade => exact submits.elim
  | op o =>
    cases o with
    | submit t options => exact Or.inl ⟨t, options, rfl⟩
    | execute options => exact Or.inr ⟨options, rfl⟩
    | _ => exact submits.elim

def run (c : Channel σ) (calls : List Call) (s : Online σ) : Online σ :=
  calls.foldl (fun s call => after (call.step c s)) s

theorem run_append (c : Channel σ) (calls more : List Call) (s : Online σ) :
    run c (calls ++ more) s = run c more (run c calls s) :=
  List.foldl_append

end Call

namespace Session

variable {σ : Type}

theorem Reachable.run (c : Channel σ) (ops : List SessionOp) {s : Online σ} (h : s.session.Reachable) :
    (Call.run c (ops.map .op) s).session.Reachable := by
  induction ops generalizing s with
  | nil => exact h
  | cons op rest ih => exact ih (.step c op s h)

/-- A session that was finalized or handed over. -/
def IsClosed (s : Session) : Prop :=
  s.submitted = true ∨ s.finalized ≠ none

theorem isClosed_sent {s : Session} (sent : s.submitted = true) : s.IsClosed :=
  Or.inl sent

theorem isClosed_done {s : Session} {data : TransactionData} (done : s.finalized = some data) :
    s.IsClosed :=
  Or.inr (by rw [done]; exact Option.some_ne_none data)

theorem IsClosed.not_open {s : Session} (closed : s.IsClosed) (unsent : s.submitted = false)
    (undone : s.finalized = none) : False := by
  rcases closed with sent | done
  · cases unsent.symm.trans sent
  · exact done undone

/-! ### Calls that a closed session refuses -/

theorem refuses_offline {α : Type} {x : SessionStep α} {s : Online σ} (refused : Refuses x s.session) :
    Refuses (offline x : OnlineStep σ α) s := by
  obtain ⟨e, failed⟩ := refused
  exact ⟨e, offline_of_error failed⟩

section

variable {s : Session} (closed : s.IsClosed)

include closed

theorem refuses_ensureOpen : Refuses ensureOpen s := by
  rcases ensureOpen_cases s with failed | ⟨unsent, undone, -⟩
  · exact failed
  · exact (closed.not_open unsent undone).elim

theorem refuses_edit {α : Type} (x : DraftStep α) : Refuses (edit x) s := by
  rcases edit_cases x s with failed | ⟨a, d, unsent, undone, -, -⟩
  · exact failed
  · exact (closed.not_open unsent undone).elim

theorem refuses_build (op : BuildOp) : Refuses op.step s := by
  rcases BuildOp.builds_step op op.takes_sealed s with failed | ⟨a, d, unsent, undone, -, -⟩
  · exact failed
  · exact (closed.not_open unsent undone).elim

end

theorem refuses_call (c : Channel σ) {call : Call} (needs : call.NeedsOpen) {s : Online σ}
    (closed : s.session.IsClosed) : Refuses (call.step c) s := by
  have shut : Refuses ensureOpen s.session := refuses_ensureOpen closed
  cases call with
  | customUpgrade protocol p id cap => exact refuses_map (refuses_offline (refuses_edit closed _))
  | op o =>
    cases o with
    | setGasPrice price => exact refuses_map (refuses_offline (refuses_bind shut))
    | setExpiration expiration => exact refuses_map (refuses_offline (refuses_bind shut))
    | build op => exact refuses_map (refuses_offline (refuses_build closed op))
    | moveCall target values typeArguments => exact refuses_map (refuses_bind (refuses_offline shut))
    | finalize budget coin => exact refuses_map (refuses_bind (refuses_offline shut))
    | _ => exact needs.elim

/-! ### Where calls lead -/

section

variable {c : Channel σ} {R : Session → Session → Prop}

theorem moves_edit {α : Type} (along : Along R) (edits : ∀ (s : Session) (d : Draft),
    s.submitted = false → s.finalized = none → R s { s with draft := d }) (x : DraftStep α) :
    Moves R (offline (edit x) : OnlineStep σ α) := by
  apply moves_offline
  intro s
  rcases edit_cases x s with ⟨e, run⟩ | ⟨a, d, unsent, undone, -, run⟩
  · rw [run]
    exact along.refl s
  · rw [run]
    exact edits s d unsent undone

/-- To set the terms of a session goes only where each of them may change. -/
theorem moves_terms (along : Along R)
    (pins : ∀ (s : Session) (price : UInt64), s.submitted = false → s.finalized = none →
      R s { s with gasPrice := some price })
    (expires : ∀ (s : Session) (expiration : Expiration), s.submitted = false → s.finalized = none →
      R s { s with expiration := expiration })
    (sender : ∀ (s : Session) (sender : Address), R s (s.withSender sender))
    (sponsor : ∀ (s : Session) (sponsor : Address), R s (s.withSponsor sponsor))
    {op : SessionOp} (sets : op.SetsTerms) : Moves R (op.step c) := by
  cases op with
  | withSender address => exact moves_map (moves_offline fun s => sender s address)
  | withSponsor address => exact moves_map (moves_offline fun s => sponsor s address)
  | setGasPrice price => exact moves_map (moves_modify along fun s => pins s price)
  | setExpiration expiration => exact moves_map (moves_modify along fun s => expires s expiration)
  | _ => exact sets.elim

/-- A call goes only where its changes may go, if any change to the draft of an open session may. -/
theorem moves_call (finalizes : Finalizes c R) (call : Call)
    (terms : ∀ op : SessionOp, call = .op op → op.SetsTerms → Moves R (op.step c))
    (edits : ∀ (s : Session) (d : Draft), s.submitted = false → s.finalized = none →
      R s { s with draft := d })
    (submits : call.Submits → ∀ s : Session, s.submitted = false → R s { s with submitted := true }) :
    Moves R (call.step c) := by
  cases call with
  | op o =>
    exact moves_op finalizes o (terms o rfl) (fun _ s d _ unsent undone _ => edits s d unsent undone) submits
  | customUpgrade protocol p id cap => exact moves_map (moves_edit finalizes.toAlong edits _)

end

end Session

end MoveTx
