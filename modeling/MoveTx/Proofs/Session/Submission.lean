import MoveTx.Proofs.Session.Logged
import MoveTx.Proofs.Session.Payment
import MoveTx.Proofs.Session.Price

/-!
# Submission

The chain is asked to execute a session at most once. From then on the session takes no further calls,
and what it serializes is fixed as soon as it is finalized.
-/

namespace MoveTx.Session
open Step

variable {σ : Type}

/-! ### Handing a transaction over -/

section

variable (c : Channel σ) (t : SignedTransaction) (options : ExecuteOptions) {s : Online σ}

theorem markSubmitted_sent {s : Session} (sent : s.submitted = true) :
    markSubmitted s = .error .alreadySubmitted s := by
  have run : markSubmitted s = (if s.submitted then throw .alreadySubmitted
      else set { s with submitted := true } : SessionStep Unit) s := rfl
  rw [run, if_pos sent]
  rfl

theorem markSubmitted_unsent {s : Session} (unsent : s.submitted = false) :
    markSubmitted s = .ok () { s with submitted := true } := by
  have run : markSubmitted s = (if s.submitted then throw .alreadySubmitted
      else set { s with submitted := true } : SessionStep Unit) s := rfl
  rw [run, if_neg (by simp [unsent])]
  rfl

theorem submit_refuses (sent : s.session.submitted = true) : Refuses (submit c t options) s :=
  refuses_bind (refuses_offline ⟨_, markSubmitted_sent sent⟩)

theorem execute_refuses (sent : s.session.submitted = true) : Refuses (execute c options) s := by
  refine ⟨.alreadySubmitted, ?_⟩
  unfold execute
  rw [current_bind, if_pos sent]
  rfl

theorem refuses_submitting {call : Call} (submits : call.Submits) (sent : s.session.submitted = true) :
    Refuses (call.step c) s := by
  rcases submits.cases with ⟨t, options, rfl⟩ | ⟨options, rfl⟩
  · exact refuses_map (submit_refuses c t options sent)
  · exact refuses_map (execute_refuses c options sent)

/-- The session counts as submitted whatever the chain answers. -/
theorem after_submit (unsent : s.session.submitted = false) :
    after (submit c t options s) = ⟨{ s.session with submitted := true },
      after (c.execute t.transaction t.signatures options s.chain)⟩ := by
  have marked : (offline markSubmitted : OnlineStep σ Unit) s =
      .ok () { s with session := { s.session with submitted := true } } :=
    offline_ok_iff.mpr ⟨_, markSubmitted_unsent unsent, rfl⟩
  unfold submit
  rw [bind_of_ok marked]
  unfold request
  cases c.execute t.transaction t.signatures options s.chain <;> rfl

/-- To execute is to sign and to submit. -/
theorem execute_unsent (unsent : s.session.submitted = false) :
    execute c options s = (sign c >>= fun t => submit c t options) s := by
  have taken : ¬ s.session.submitted = true := by simp [unsent]
  unfold execute
  rw [current_bind, if_neg taken]

end

section

variable {c : Channel σ}

/-- A session with a log that submits a transaction. -/
theorem after_submit_logged (t : SignedTransaction) (options : ExecuteOptions) {s : Online (Logged σ)}
    (unsent : s.session.submitted = false) :
    after (submit c.logged t options s) = ⟨{ s.session with submitted := true },
      ⟨after (c.execute t.transaction t.signatures options s.chain.state), s.chain.executed ++ [t]⟩⟩ := by
  rw [after_submit c.logged t options unsent, Channel.after_execute_logged]

/-! ### Signing -/

theorem finalizes_sent (c : Channel σ) : Finalizes c fun s t => t.submitted = s.submitted where
  refl := fun _ => rfl
  trans := fun first next => next.trans first
  price := fun _ _ _ _ _ _ => rfl
  function := fun _ _ => rfl
  finalizes := by
    intro budget coin s t data f
    have limited := f.learns (learns_frame c)
    rw [f.session_eq]
    exact limited.submitted

/-- To execute is to be refused, to fail to sign, or to submit what was signed. -/
theorem execute_cases (c : Channel σ) (options : ExecuteOptions) (s : Online σ) :
    Refuses (execute c options) s ∨
      (∃ e u, sign c s = .error e u ∧ execute c options s = .error e u) ∨
      ∃ t u, sign c s = .ok t u ∧ u.session.submitted = false ∧
        execute c options s = submit c t options u := by
  by_cases sent : s.session.submitted = true
  · exact Or.inl (execute_refuses c options sent)
  have unsent := eq_false_of_ne_true sent
  rw [execute_unsent c options unsent]
  cases signing : sign c s with
  | error e u => exact Or.inr (Or.inl ⟨e, u, rfl, bind_of_error signing⟩)
  | ok t u =>
    have still := (moves_sign (finalizes_sent c)).ok signing
    exact Or.inr (Or.inr ⟨t, u, rfl, still.trans unsent, bind_of_ok signing⟩)

theorem finalizedData_ok {c : Channel σ} {s t : Online σ} {data : TransactionData}
    (run : finalizedData c s = .ok data t) : t.session.finalized = some data := by
  unfold finalizedData at run
  rw [current_bind] at run
  cases done : s.session.finalized with
  | some known =>
    rw [done] at run
    obtain ⟨rfl, rfl⟩ := pure_ok_iff.mp run
    exact done
  | none =>
    rw [done] at run
    obtain ⟨f⟩ := finalize_ok run
    rw [f.session_eq]

/-- A session that is finalized has its data at hand. -/
theorem finalizedData_done {s : Online σ} {data : TransactionData}
    (done : s.session.finalized = some data) : finalizedData c s = .ok data s := by
  unfold finalizedData
  rw [current_bind, done]
  rfl

theorem signedWith_ok {s : Session} {data : TransactionData} {first : Except ClientError String}
    {t : SignedTransaction} (run : s.signedWith data first = .ok t) :
    t.transaction = Base64.encode (encode data) := by
  unfold signedWith at run
  obtain ⟨signature, -, run⟩ := except_bind_ok_iff.mp run
  obtain ⟨rest, -, run⟩ := except_bind_ok_iff.mp run
  obtain rfl := Except.ok.inj run
  rfl

theorem sign_ok {s u : Online σ} {t : SignedTransaction} (run : sign c s = .ok t u) :
    ∃ data, finalizedData c s = .ok data u ∧
      u.session.signedWith data (u.session.signatureOf u.session.sender data) = .ok t := by
  unfold sign at run
  obtain ⟨data, v, finalized, run⟩ := bind_ok_iff.mp run
  rw [current_bind] at run
  obtain ⟨signed, rfl⟩ := ofExcept_ok_iff.mp run
  exact ⟨data, finalized, signed⟩

theorem signMultiSig_ok {key : MultiSigKey} {signers : List TransactionSigner} {s u : Online σ}
    {t : SignedTransaction} (run : signMultiSig c key signers s = .ok t u) :
    ∃ data first, finalizedData c s = .ok data u ∧ u.session.signedWith data first = .ok t := by
  unfold signMultiSig at run
  rw [current_bind] at run
  split at run
  · obtain ⟨_, _, failed, -⟩ := bind_ok_iff.mp run
    exact (throw_ok_iff.mp failed).elim
  · obtain ⟨data, v, finalized, run⟩ := bind_ok_iff.mp run
    rw [current_bind] at run
    obtain ⟨signed, rfl⟩ := ofExcept_ok_iff.mp run
    exact ⟨data, _, finalized, signed⟩

/-- What is executed, if anything, is the data of the session. -/
theorem execute_sends (c : Channel σ) (options : ExecuteOptions) (s : Online (Logged σ)) :
    (after (execute c.logged options s)).chain.executed = s.chain.executed ∨
      ∃ data signatures, (after (execute c.logged options s)).session.finalized = some data ∧
        (after (execute c.logged options s)).chain.executed =
          s.chain.executed ++ [⟨Base64.encode (encode data), signatures⟩] := by
  have quiet := (quiet_sign c).executed s
  rcases execute_cases c.logged options s with ⟨e, refused⟩ | ⟨e, u, signing, run⟩ |
    ⟨t, u, signing, unsent, run⟩
  · rw [refused]
    exact Or.inl rfl
  · rw [signing] at quiet
    rw [run]
    exact Or.inl quiet
  · rw [signing] at quiet
    obtain ⟨data, finalized, signed⟩ := sign_ok signing
    have done := finalizedData_ok finalized
    have log : u.chain.executed = s.chain.executed := quiet
    rw [run, after_submit_logged t options unsent]
    refine Or.inr ⟨data, t.signatures, done, ?_⟩
    rw [log, ← signedWith_ok signed]

end

/-! ### What is fixed -/

/-- A session that was closed stays as it was closed, and one that was submitted stays submitted. -/
structure Keeps (s t : Session) : Prop where
  submitted : s.submitted = true → t.submitted = true
  draft : s.IsClosed → t.draft = s.draft
  finalized : s.IsClosed → t.finalized = s.finalized

theorem Keeps.closed {s t : Session} (keeps : s.Keeps t) (closed : s.IsClosed) : t.IsClosed := by
  rcases closed with sent | done
  · exact Or.inl (keeps.submitted sent)
  · exact Or.inr (by rw [keeps.finalized (Or.inr done)]; exact done)

theorem Keeps.trans {s t u : Session} (first : s.Keeps t) (next : t.Keeps u) : s.Keeps u where
  submitted := fun sent => next.submitted (first.submitted sent)
  draft := fun closed => (next.draft (first.closed closed)).trans (first.draft closed)
  finalized := fun closed => (next.finalized (first.closed closed)).trans (first.finalized closed)

/-- A session that is open may change in any way. -/
theorem keeps_open {s t : Session} (unsent : s.submitted = false) (undone : s.finalized = none) :
    s.Keeps t where
  submitted := fun sent => by cases unsent.symm.trans sent
  draft := fun closed => (closed.not_open unsent undone).elim
  finalized := fun closed => (closed.not_open unsent undone).elim

theorem keeps_same {s t : Session} (submitted : t.submitted = s.submitted) (draft : t.draft = s.draft)
    (finalized : t.finalized = s.finalized) : s.Keeps t :=
  ⟨submitted.trans, fun _ => draft, fun _ => finalized⟩

theorem concludes_keeps (c : Channel σ) : Concludes c Keeps where
  refl := fun _ => keeps_same rfl rfl rfl
  trans := Keeps.trans
  price := fun _ _ _ _ _ _ => keeps_same rfl rfl rfl
  function := fun _ _ => keeps_same rfl rfl rfl
  finalizes := fun f => keeps_open f.unsent f.undone
  submits := fun _ _ => ⟨fun _ => rfl, fun _ => rfl, fun _ => rfl⟩

theorem keeps_call (c : Channel σ) (call : Call) : Moves Keeps (call.step c) := by
  have concludes := concludes_keeps c
  refine moves_call concludes.toFinalizes call ?_ (fun _ _ => keeps_open) fun _ => concludes.submits
  intro op _ sets
  apply moves_terms concludes.toAlong _ _ _ _ sets
  all_goals intros; exact keeps_same rfl rfl rfl

theorem keeps_run (c : Channel σ) (calls : List Call) (s : Online σ) :
    s.session.Keeps (Call.run c calls s).session := by
  induction calls generalizing s with
  | nil => exact keeps_same rfl rfl rfl
  | cons call rest ih => exact (keeps_call c call s).trans (ih _)

/-- Only what hands a transaction to the chain makes a session count as submitted. -/
theorem submitted_call (c : Channel σ) {call : Call} (keeps : ¬ call.Submits) (s : Online σ) :
    (after (call.step c s)).session.submitted = s.session.submitted := by
  refine moves_call (finalizes_sent c) call ?_ (fun _ _ _ _ => rfl) (fun submits => absurd submits keeps) s
  intro op _ sets
  apply moves_terms (finalizes_sent c).toAlong _ _ _ _ sets
  all_goals intros; rfl

/-! ### What is executed -/

section

variable (c : Channel σ)

/-- The log holds one transaction if the session was submitted, and none if it was not. -/
def Tallied (s : Online (Logged σ)) : Prop :=
  s.chain.executed.length = if s.session.submitted then 1 else 0

theorem Tallied.length_le {s : Online (Logged σ)} (tallied : Tallied s) :
    s.chain.executed.length ≤ 1 := by
  rw [tallied]
  split <;> decide

theorem Tallied.sent {s : Online (Logged σ)} (tallied : Tallied s) (asked : s.chain.executed ≠ []) :
    s.session.submitted = true := by
  by_contra unsent
  rw [Tallied, if_neg unsent] at tallied
  exact asked (List.eq_nil_of_length_eq_zero tallied)

theorem tallied_submit (t : SignedTransaction) (options : ExecuteOptions) {s : Online (Logged σ)}
    (tallied : Tallied s) : Tallied (after (submit c.logged t options s)) := by
  by_cases sent : s.session.submitted = true
  · obtain ⟨e, refused⟩ := submit_refuses c.logged t options sent
    rw [refused]
    exact tallied
  · have unsent := eq_false_of_ne_true sent
    have none : s.chain.executed.length = 0 := by rw [tallied, unsent]; rfl
    rw [after_submit_logged t options unsent]
    simp [Tallied, none]

theorem tallied_quiet {α : Type} {y : OnlineStep (Logged σ) α} {x : OnlineStep σ α} (quiet : Quiet y x)
    (same : ∀ s, (after (y s)).session.submitted = s.session.submitted) {s : Online (Logged σ)}
    (tallied : Tallied s) : Tallied (after (y s)) := by
  rw [Tallied, quiet.executed s, same s]
  exact tallied

theorem tallied_execute (options : ExecuteOptions) {s : Online (Logged σ)} (tallied : Tallied s) :
    Tallied (after (execute c.logged options s)) := by
  have signed := tallied_quiet (quiet_sign c) (moves_sign (finalizes_sent c.logged)) tallied
  rcases execute_cases c.logged options s with ⟨e, refused⟩ | ⟨e, u, signing, run⟩ |
    ⟨t, u, signing, -, run⟩
  · rw [refused]
    exact tallied
  · rw [signing] at signed
    rw [run]
    exact signed
  · rw [signing] at signed
    rw [run]
    exact tallied_submit c t options signed

theorem tallied_call (call : Call) {s : Online (Logged σ)} (tallied : Tallied s) :
    Tallied (after (call.step c.logged s)) := by
  by_cases submits : call.Submits
  · rcases submits.cases with ⟨t, options, rfl⟩ | ⟨options, rfl⟩
    · have here := tallied_submit c t options tallied
      rw [← after_map (f := SessionAnswer.executed)] at here
      exact here
    · have here := tallied_execute c options tallied
      rw [← after_map (f := SessionAnswer.executed)] at here
      exact here
  · exact tallied_quiet (quiet_call c submits) (submitted_call c.logged submits) tallied

theorem tallied_run (calls : List Call) {s : Online (Logged σ)} (tallied : Tallied s) :
    Tallied (Call.run c.logged calls s) := by
  induction calls generalizing s with
  | nil => exact tallied
  | cons call rest ih => exact ih (tallied_call c call tallied)

/-- A session that was submitted executes nothing more. -/
theorem executed_call (call : Call) {s : Online (Logged σ)} (sent : s.session.submitted = true) :
    (after (call.step c.logged s)).chain.executed = s.chain.executed := by
  by_cases submits : call.Submits
  · obtain ⟨e, refused⟩ := refuses_submitting c.logged submits sent
    rw [refused]
    rfl
  · exact (quiet_call c submits).executed s

theorem executed_run (calls : List Call) {s : Online (Logged σ)} (sent : s.session.submitted = true) :
    (Call.run c.logged calls s).chain.executed = s.chain.executed := by
  induction calls generalizing s with
  | nil => rfl
  | cons call rest ih =>
    have still := (keeps_call c.logged call s).submitted sent
    exact (ih still).trans (executed_call c call sent)

/-! ### The log is all that a logged channel adds -/

theorem unlogged_submit (t : SignedTransaction) (options : ExecuteOptions) (s : Online (Logged σ)) :
    (Online.unlogged σ).get (after (submit c.logged t options s)) =
      after (submit c t options ((Online.unlogged σ).get s)) := by
  by_cases sent : s.session.submitted = true
  · obtain ⟨e, refused⟩ := submit_refuses c.logged t options sent
    obtain ⟨e', refused'⟩ := submit_refuses c t options (s := (Online.unlogged σ).get s) sent
    rw [refused, refused']
    rfl
  · have unsent := eq_false_of_ne_true sent
    rw [after_submit_logged t options unsent,
      after_submit c t options (s := (Online.unlogged σ).get s) unsent]
    rfl

theorem unlogged_execute (options : ExecuteOptions) (s : Online (Logged σ)) :
    (Online.unlogged σ).get (after (execute c.logged options s)) =
      after (execute c options ((Online.unlogged σ).get s)) := by
  by_cases sent : s.session.submitted = true
  · obtain ⟨e, refused⟩ := execute_refuses c.logged options sent
    obtain ⟨e', refused'⟩ := execute_refuses c options (s := (Online.unlogged σ).get s) sent
    rw [refused, refused']
    rfl
  · have unsent := eq_false_of_ne_true sent
    rw [execute_unsent c.logged options unsent,
      execute_unsent c options (s := (Online.unlogged σ).get s) unsent]
    cases signing : sign c ((Online.unlogged σ).get s) with
    | error e u =>
      have here := (Online.unlogged σ).lift_of_error signing
      rw [← quiet_sign c] at here
      rw [bind_of_error here, bind_of_error signing]
      rfl
    | ok t u =>
      have here := (Online.unlogged σ).lift_of_ok signing
      rw [← quiet_sign c] at here
      rw [bind_of_ok here, bind_of_ok signing]
      exact unlogged_submit c t options _

theorem unlogged_call (call : Call) (s : Online (Logged σ)) :
    (Online.unlogged σ).get (after (call.step c.logged s)) =
      after (call.step c ((Online.unlogged σ).get s)) := by
  by_cases submits : call.Submits
  · rcases submits.cases with ⟨t, options, rfl⟩ | ⟨options, rfl⟩
    · have here := unlogged_submit c t options s
      rw [← after_map (f := SessionAnswer.executed), ← after_map (f := SessionAnswer.executed)] at here
      exact here
    · have here := unlogged_execute c options s
      rw [← after_map (f := SessionAnswer.executed), ← after_map (f := SessionAnswer.executed)] at here
      exact here
  · rw [quiet_call c submits, Part.after_lift, Part.get_put]

/-- A run on a logged channel is a run on the channel, and its log. -/
theorem run_unlogged (calls : List Call) (s : Online (Logged σ)) :
    (Online.unlogged σ).get (Call.run c.logged calls s) = Call.run c calls ((Online.unlogged σ).get s) := by
  induction calls generalizing s with
  | nil => rfl
  | cons call rest ih => exact (ih _).trans (congrArg (Call.run c rest) (unlogged_call c call s))

end

/-! ### Runs -/

/-- A session that serializes the data `data` and nothing else. -/
structure Serializes (c : Channel σ) (s : Online (Logged σ)) (data : TransactionData) : Prop where
  build : build c.logged s = .ok (Base64.encode (encode data)) s
  sign : ∀ t u, sign c.logged s = .ok t u → t.transaction = Base64.encode (encode data)
  signMultiSig : ∀ key signers t u, signMultiSig c.logged key signers s = .ok t u →
    t.transaction = Base64.encode (encode data)
  execute : ∀ options, (after (execute c.logged options s)).chain.executed = s.chain.executed ∨
    ∃ signatures, (after (execute c.logged options s)).chain.executed =
      s.chain.executed ++ [⟨Base64.encode (encode data), signatures⟩]

theorem serializes_done (c : Channel σ) {s : Online (Logged σ)} {data : TransactionData}
    (done : s.session.finalized = some data) : Serializes c s data where
  build := bind_of_ok (finalizedData_done done)
  sign := by
    intro t u run
    obtain ⟨d, finalized, signed⟩ := sign_ok run
    obtain ⟨rfl, -⟩ := EStateM.Result.ok.inj ((finalizedData_done done).symm.trans finalized)
    exact signedWith_ok signed
  signMultiSig := by
    intro key signers t u run
    obtain ⟨d, first, finalized, signed⟩ := signMultiSig_ok run
    obtain ⟨rfl, -⟩ := EStateM.Result.ok.inj ((finalizedData_done done).symm.trans finalized)
    exact signedWith_ok signed
  execute := by
    intro options
    rcases execute_sends c options s with same | ⟨d, signatures, finalized, sent⟩
    · exact Or.inl same
    · have kept := moves_execute (concludes_keeps c.logged) options s
      rw [kept.finalized (isClosed_done done), done] at finalized
      obtain rfl := Option.some.inj finalized
      exact Or.inr ⟨signatures, sent⟩

/-- What a run has settled when it has come from `s` to `t`. -/
structure Settled (c : Channel σ) (s t : Online (Logged σ)) : Prop where
  /-- The chain is asked to execute at most once. -/
  once : t.chain.executed.length ≤ 1
  /-- Once it was asked nothing changes any more, whatever came of it. -/
  final : s.chain.executed ≠ [] → t.chain.executed = s.chain.executed ∧
    t.session.draft = s.session.draft ∧ t.session.finalized = s.session.finalized
  /-- Once it was asked no call is taken that would build, finalize or submit. -/
  refused : s.chain.executed ≠ [] → ∀ call : Call, call.NeedsOpen ∨ call.Submits →
    Refuses (call.step c.logged) t
  /-- Data that was finalized stays, and is what the session serializes. -/
  fixed : ∀ data, s.session.finalized = some data →
    t.session.finalized = some data ∧ Serializes c t data
  /-- To execute sends the data that is finalized, if it sends anything. -/
  sends : ∀ options, (after (execute c.logged options t)).chain.executed = t.chain.executed ∨
    ∃ data signatures, (after (execute c.logged options t)).session.finalized = some data ∧
      (after (execute c.logged options t)).chain.executed =
        t.chain.executed ++ [⟨Base64.encode (encode data), signatures⟩]

/-- A new session after calls, with the log of its channel. -/
def called (c : Channel σ) (config : ClientConfig) (chain : σ) (calls : List Call) : Online (Logged σ) :=
  Call.run c.logged calls ⟨start config, ⟨chain, []⟩⟩

/-- At most one submission, of fixed data, in every run of a session on any channel. -/
theorem called_settles (c : Channel σ) (config : ClientConfig) (chain : σ) (before later : List Call) :
    Settled c (called c config chain before) (called c config chain (before ++ later)) ∧
      (Online.unlogged σ).get (called c config chain (before ++ later)) =
        Call.run c (before ++ later) ⟨start config, chain⟩ := by
  refine ⟨?_, run_unlogged c _ _⟩
  -- The run is cut where `before` ends: the tally is counted up to there, and a session that is closed
  -- there is kept from there on.
  have new : Tallied (σ := σ) ⟨start config, ⟨chain, []⟩⟩ := rfl
  have tallied : Tallied (called c config chain before) := tallied_run c before new
  have goes : called c config chain (before ++ later) =
      Call.run c.logged later (called c config chain before) := Call.run_append _ _ _ _
  have kept := keeps_run c.logged later (called c config chain before)
  rw [goes]
  constructor
  case once => exact (tallied_run c later tallied).length_le
  case final =>
    intro asked
    have sent := tallied.sent asked
    have closed := isClosed_sent sent
    exact ⟨executed_run c later sent, kept.draft closed, kept.finalized closed⟩
  case refused =>
    intro asked call kind
    have sent := kept.submitted (tallied.sent asked)
    rcases kind with needs | submits
    · exact refuses_call c.logged needs (isClosed_sent sent)
    · exact refuses_submitting c.logged submits sent
  case fixed =>
    intro data done
    have still := (kept.finalized (isClosed_done done)).trans done
    exact ⟨still, serializes_done c still⟩
  case sends => exact fun options => execute_sends c options _

/-- Signatures that nobody checks, over no transaction. -/
def anySigned : SignedTransaction :=
  ⟨"", []⟩

/-- Sends a coin, finalizes the session and submits something on a chain that executes nothing. -/
def submitsOnce : List Call :=
  [.op (.build (.transferObjects [.object (coinOf 101 9000).ref] .clock)), .op (.finalize (some 4000) none),
    .op (.submit anySigned {})]

theorem submitsOnce_settles :
    (called twoCoins {} () submitsOnce).chain.executed = [anySigned] ∧
      (called twoCoins {} () submitsOnce).session.finalized ≠ none ∧
      Settled twoCoins (called twoCoins {} () submitsOnce)
        (called twoCoins {} () (submitsOnce ++ [.op (.execute {}), .op (.setGasPrice 7), .op .encode])) := by
  refine ⟨rfl, ?_, (called_settles twoCoins {} () submitsOnce _).1⟩
  exact Option.some_ne_none _

end MoveTx.Session
