import MoveTx.Proofs.Session.Atomic
import MoveTx.Proofs.Session.Submission

/-!
# Signing that fails

To sign is to finalize first and to look for keys then. When no data could be finalized, a signing that
fails leaves the session as it was. When a key is missing, it leaves the session finalized, which takes no
further commands.
-/

namespace MoveTx.Session
open Step

variable {σ : Type} {c : Channel σ} {s t : Online σ} {e : ClientError}

/-- How a signing fails: before it asks for the data, with the data, or after it. -/
inductive Stops (c : Channel σ) (s t : Online σ) (e : ClientError) : Prop
  | before (same : t = s)
  | finalizing (failed : finalizedData c s = .error e t)
  | signing (data : TransactionData) (finalized : finalizedData c s = .ok data t)

theorem sign_stops (run : sign c s = .error e t) : Stops c s t e := by
  unfold sign at run
  rcases bind_error_iff.mp run with failed | ⟨data, u, finalized, signing⟩
  · exact .finalizing failed
  · rw [current_bind] at signing
    obtain ⟨_, -, -, rfl⟩ := ofExcept_error_iff.mp signing
    exact .signing data finalized

theorem signMultiSig_stops {key : MultiSigKey} {signers : List TransactionSigner}
    (run : signMultiSig c key signers s = .error e t) : Stops c s t e := by
  unfold signMultiSig at run
  rw [current_bind] at run
  split at run
  · have refused : (throw (.unknownSigner s.session.sender) : OnlineStep σ PUnit) s =
        .error (.unknownSigner s.session.sender) s := rfl
    rw [bind_of_error refused] at run
    exact .before (EStateM.Result.error.inj run).2.symm
  · rcases bind_error_iff.mp run with failed | ⟨data, u, finalized, signing⟩
    · exact .finalizing failed
    · rw [current_bind] at signing
      obtain ⟨_, -, -, rfl⟩ := ofExcept_error_iff.mp signing
      exact .signing data finalized

/-- An execution that fails before the chain is asked is a signing that fails. -/
theorem execute_stops {c : Channel σ} {s t : Online (Logged σ)} {options : ExecuteOptions}
    (run : execute c.logged options s = .error e t) (unasked : t.chain.executed = s.chain.executed) :
    Stops c.logged s t e := by
  have quiet := (quiet_sign c).executed s
  rcases execute_cases c.logged options s with ⟨_, refused⟩ | ⟨_, u, signing, failed⟩ |
    ⟨signed, u, signing, unsent, submitting⟩
  · exact .before (EStateM.Result.error.inj (refused.symm.trans run)).2.symm
  · obtain ⟨rfl, rfl⟩ := EStateM.Result.error.inj (failed.symm.trans run)
    exact sign_stops signing
  · -- The chain is asked as soon as the signatures are there, and the log would show it.
    have asked := after_submit_logged (c := c) signed options unsent
    rw [signing] at quiet
    rw [← submitting, run] at asked
    have log : t.chain.executed = u.chain.executed ++ [signed] :=
      congrArg (fun s : Online (Logged σ) => s.chain.executed) asked
    have before : u.chain.executed = s.chain.executed := quiet
    rw [log, before] at unasked
    simp at unasked

/-! ### What a failed signing leaves -/

theorem signs_stops {c : Channel σ} {call : Call} (signs : call.Signs) {s t : Online (Logged σ)}
    (run : call.step c.logged s = .error e t) (unasked : t.chain.executed = s.chain.executed) :
    Stops c.logged s t e := by
  cases call with
  | customUpgrade => exact signs.elim
  | op o =>
    cases o with
    | sign => exact sign_stops (map_error_iff.mp run)
    | signMultiSig key signers => exact signMultiSig_stops (map_error_iff.mp run)
    | execute options => exact execute_stops (map_error_iff.mp run) unasked
    | _ => exact signs.elim

theorem finalizedData_undone (undone : s.session.finalized = none) :
    finalizedData c s = finalize c none none s := by
  unfold finalizedData
  rw [current_bind, undone]

/-- Signing that fails before the chain is asked leaves the session as it was, but for its price, if it
could not be finalized. If it could be, the session is finalized now and takes no further commands. -/
theorem signing_fails {c : Channel σ} {call : Call} (signs : call.Signs) {s t : Online (Logged σ)}
    (undone : s.session.finalized = none) (run : call.step c.logged s = .error e t)
    (unasked : t.chain.executed = s.chain.executed) :
    ((t = s ∨ finalize c.logged none none s = .error e t) ∧
        s.session.Frame t.session ∧ t.session.functions = s.session.functions) ∨
      ∃ data, finalize c.logged none none s = .ok data t ∧ t.session.finalized = some data ∧
        ∀ later : Call, later.NeedsOpen → Refuses (later.step c.logged) t := by
  have stops := signs_stops signs run unasked
  cases stops with
  | before same =>
    rw [same]
    exact Or.inl ⟨Or.inl rfl, frame_refl s.session, rfl⟩
  | finalizing failed =>
    rw [finalizedData_undone undone] at failed
    have spared := spared_finalize c.logged none none s e t failed
    exact Or.inl ⟨Or.inr failed, spared.toFrame, functions_finalize c.logged none none s e t failed⟩
  | signing data finalized =>
    have done := finalizedData_ok finalized
    rw [finalizedData_undone undone] at finalized
    exact Or.inr ⟨data, finalized, done, fun later needs =>
      refuses_call c.logged needs (isClosed_done done)⟩

/-! ### A key that is missing -/

/-- A session that sends a coin for an address without a key. -/
def keyless : Online (Logged Unit) :=
  after (SessionOp.step twoCoins.logged (.build (.transferObjects [.object (coinOf 101 9000).ref] .clock))
    ⟨start { defaultBudget := some 4000 }, ⟨(), []⟩⟩)

/-- One more input. -/
def addsNumber : Call :=
  .op (.build (.pure (.scalar (.u8 7))))

theorem keyless_sign :
    ∃ data t, finalize twoCoins.logged none none keyless = .ok data t ∧
      (Call.op .sign).step twoCoins.logged keyless = .error (.unknownSigner (.ofNat 0)) t :=
  ⟨_, _, rfl, rfl⟩

theorem keyless_signing_fails :
    ∃ e t, (Call.op .sign).step twoCoins.logged keyless = .error e t ∧
      ∃ data, finalize twoCoins.logged none none keyless = .ok data t ∧
        t.session.finalized = some data := by
  obtain ⟨data, t, finalized, run⟩ := keyless_sign
  have undone : keyless.session.finalized = none := rfl
  have signs : (Call.op .sign).Signs := trivial
  have unasked : t.chain.executed = keyless.chain.executed := by
    have quiet := (quiet_finalize twoCoins none none).executed keyless
    rw [finalized] at quiet
    exact quiet
  refine ⟨_, t, run, ?_⟩
  rcases signing_fails signs undone run unasked with
    ⟨same | failed, -, -⟩ | ⟨d, again, done, -⟩
  · have done := finalizedData_ok ((finalizedData_undone undone).trans finalized)
    rw [same, undone] at done
    cases done
  · cases failed.symm.trans finalized
  · exact ⟨d, again, done⟩

/-- Signing without a key fails, and closes a session that took commands before. -/
theorem keyless_closed :
    ∃ e t, keyless.session.Reachable ∧ keyless.session.finalized = none ∧
      (Call.op .sign).step twoCoins.logged keyless = .error e t ∧
      t.chain.executed = keyless.chain.executed ∧
      (∃ answer u, addsNumber.step twoCoins.logged keyless = .ok answer u) ∧
      t.session.finalized ≠ none ∧ Refuses (addsNumber.step twoCoins.logged) t := by
  obtain ⟨data, t, finalized, run⟩ := keyless_sign
  have undone : keyless.session.finalized = none := rfl
  have reachable : keyless.session.Reachable := .step twoCoins.logged _ _ (.start _)
  have quiet := (quiet_finalize twoCoins none none).executed keyless
  have done := finalizedData_ok ((finalizedData_undone undone).trans finalized)
  have shut : t.session.finalized ≠ none := by rw [done]; exact Option.some_ne_none data
  rw [finalized] at quiet
  have needs : addsNumber.NeedsOpen := trivial
  exact ⟨_, t, reachable, undone, run, quiet, ⟨_, _, rfl⟩, shut,
    refuses_call twoCoins.logged needs (isClosed_done done)⟩

end MoveTx.Session
