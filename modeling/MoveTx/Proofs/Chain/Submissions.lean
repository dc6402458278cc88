import MoveTx.Chain.Memory
import MoveTx.Proofs.Step
import MoveTx.Proofs.Transaction.Binary

/-!
# Transactions that were accepted

A chain in memory serves one request at a time, so whatever its clients do is a sequence of events.
Along every such sequence the accepted transactions are kept, each under its own digest, and none is
accepted twice.
-/

namespace MoveTx
open Step

/-- The text that clients send of a transaction. -/
def TransactionData.IsText (data : TransactionData) (tx : String) : Prop :=
  ∃ bs, Base64.decode? tx = some bs ∧ Codec.decodeAll bs = .ok data

/-- A record of a signed transaction, under the digest of what its text says. -/
structure Submission.Genuine (s : Submission) : Prop where
  signed : s.signatures ≠ []
  read : ∃ data : TransactionData, data.IsText s.transaction ∧ s.digest = data.digest

namespace MemoryChain

/-! ### Reading texts -/

theorem decodeTransaction_ok_iff {tx : String} {data : TransactionData} :
    decodeTransaction tx = .ok data ↔ data.IsText tx := by
  unfold decodeTransaction TransactionData.IsText
  cases Base64.decode? tx with
  | none => simp
  | some bs =>
    simp only [Option.some.injEq, exists_eq_left']
    cases (Codec.decodeAll bs : Except CodecError TransactionData) <;> simp

theorem decodeTransaction_error {tx : String} {e : ChainError} (failed : decodeTransaction tx = .error e) :
    ∀ data : TransactionData, ¬ data.IsText tx := by
  intro data text
  cases failed.symm.trans (decodeTransaction_ok_iff.mpr text)

theorem isRecorded_iff {m : MemoryChain} {digest : Digest} :
    m.isRecorded digest = true ↔ digest ∈ m.submissions.map (·.digest) := by
  simp [isRecorded]

/-! ### Requests that are answered or refused -/

/-- How a request to run a transaction ends. Only what is accepted changes the chain. -/
inductive Executed (m : MemoryChain) (tx : String) (signatures : List String)
    (options : ExecuteOptions) : EStateM.Result ChainError MemoryChain ExecutionResult → Prop
  | undecodable (e : ChainError) (unread : ∀ data : TransactionData, ¬ data.IsText tx) :
      Executed m tx signatures options (.error e m)
  | unsigned (data : TransactionData) (text : data.IsText tx) (none : signatures = []) :
      Executed m tx signatures options (.error (.execution .notSigned) m)
  | replayed (data : TransactionData) (text : data.IsText tx) (signed : signatures ≠ [])
      (recorded : data.digest ∈ m.submissions.map (·.digest)) :
      Executed m tx signatures options (.error (.execution (.alreadyExecuted data.digest)) m)
  | accepted (data : TransactionData) (text : data.IsText tx) (signed : signatures ≠ [])
      (fresh : data.digest ∉ m.submissions.map (·.digest)) (r : ExecutionResult)
      (digest : r.digest = data.digest) :
      Executed m tx signatures options
        (.ok r { m with submissions := m.submissions ++ [⟨tx, signatures, options, data.digest⟩] })

section

variable {α : Type} {m : MemoryChain} {tx : String} {f : TransactionData → ChainRequest MemoryChain α}

/-- A request that reads a text first fails with what is wrong with the text. -/
theorem undecoded_bind {e : ChainError} (read : decodeTransaction tx = .error e) :
    (ofExcept (decodeTransaction tx) >>= f) m = .error e m := by
  apply bind_of_error
  rw [read]
  rfl

theorem decoded_bind {data : TransactionData} (read : decodeTransaction tx = .ok data) :
    (ofExcept (decodeTransaction tx) >>= f) m = f data m := by
  apply bind_of_ok
  rw [read]
  rfl

end

theorem execute_cases (m : MemoryChain) (tx : String) (signatures : List String)
    (options : ExecuteOptions) :
    Executed m tx signatures options (execute tx signatures options m) := by
  cases read : decodeTransaction tx with
  | error e =>
    have run : execute tx signatures options m = .error e m := undecoded_bind read
    rw [run]
    exact .undecodable e (decodeTransaction_error read)
  | ok data =>
    have text := decodeTransaction_ok_iff.mp read
    unfold execute
    rw [decoded_bind read]
    cases signatures with
    | nil => exact .unsigned data text rfl
    | cons signature rest =>
      simp only [List.isEmpty_cons, Bool.false_eq_true, if_false]
      rw [get_bind]
      by_cases recorded : m.isRecorded data.digest = true
      · rw [if_pos recorded]
        exact .replayed data text (List.cons_ne_nil _ _) (isRecorded_iff.mp recorded)
      · rw [if_neg recorded]
        exact .accepted data text (List.cons_ne_nil _ _) (isRecorded_iff.not.mp recorded) _ rfl

/-- A transaction that can be read is tried, and its text kept. -/
theorem dryRun_cases (m : MemoryChain) (tx : String) :
    (∃ e, (∀ data : TransactionData, ¬ data.IsText tx) ∧ dryRun tx m = .error e m) ∨
      ∃ (data : TransactionData) (r : DryRun), data.IsText tx ∧
        dryRun tx m = .ok r { m with dryRuns := m.dryRuns ++ [tx] } := by
  cases read : decodeTransaction tx with
  | error e => exact Or.inl ⟨e, decodeTransaction_error read, undecoded_bind read⟩
  | ok data => exact Or.inr ⟨data, _, decodeTransaction_ok_iff.mp read, decoded_bind read⟩

/-! ### Events -/

/-- What can happen to a chain that clients share: the requests of any of them, and changes of what the
chain holds. -/
inductive Event
  | gasPrice
  | object (id : Address) (query : ObjectQuery)
  | objects (ids : List Address) (query : ObjectQuery)
  | function (package : Address) (module name : String)
  | coins (owner : Address) (type cursor : Option String) (limit : Option Nat)
  | dryRun (tx : String)
  | execute (tx : String) (signatures : List String) (options : ExecuteOptions)
  | setObject (s : ObjectStatus)
  | addCoin (owner : Address) (coin : Coin)
  | addFunction (package : Address) (module name : String) (f : MoveFunction)
  | setGasPrice (price : UInt64)
  | setCost (cost : GasCost)
  | failWith (error : String)
  | setPageSize (n : Nat)

/-- The chain after an event. A request that fails is an event as well. -/
def Event.next : Event → MemoryChain → MemoryChain
  | gasPrice, m => after (channel.gasPrice m)
  | object id query, m => after (channel.object id query m)
  | objects ids query, m => after (channel.objects ids query m)
  | function package module name, m => after (channel.function package module name m)
  | coins owner type cursor limit, m => after (channel.coins owner type cursor limit m)
  | dryRun tx, m => after (channel.dryRun tx m)
  | execute tx signatures options, m => after (channel.execute tx signatures options m)
  | setObject s, m => m.setObject s
  | addCoin owner coin, m => m.addCoin owner coin
  | addFunction package module name f, m => m.addFunction package module name f
  | setGasPrice price, m => m.setGasPrice price
  | setCost cost, m => m.setCost cost
  | failWith error, m => m.failWith error
  | setPageSize n, m => m.setPageSize n

/-- The chain after a sequence of events, which begins with an empty chain. -/
def run (events : List Event) : MemoryChain :=
  events.foldl (fun m e => e.next m) empty

theorem run_append (before later : List Event) :
    run (before ++ later) = later.foldl (fun m e => e.next m) (run before) :=
  List.foldl_append

/-- What an event adds to the records of a chain, each at its end. -/
inductive Adds (m : MemoryChain) : MemoryChain → Prop
  | nothing (t : MemoryChain) (submissions : t.submissions = m.submissions)
      (dryRuns : t.dryRuns = m.dryRuns) : Adds m t
  | trial (tx : String) : Adds m { m with dryRuns := m.dryRuns ++ [tx] }
  | submission (s : Submission) (genuine : s.Genuine) (fresh : s.digest ∉ m.submissions.map (·.digest)) :
      Adds m { m with submissions := m.submissions ++ [s] }

theorem Executed.adds {m : MemoryChain} {tx : String} {signatures : List String}
    {options : ExecuteOptions} {r : EStateM.Result ChainError MemoryChain ExecutionResult}
    (executed : Executed m tx signatures options r) : Adds m (after r) := by
  cases executed with
  | undecodable | unsigned | replayed => exact .nothing m rfl rfl
  | accepted data text signed fresh r => exact .submission _ ⟨signed, data, text, rfl⟩ fresh

theorem after_lookUpFunction (package : Address) (module name : String) (m : MemoryChain) :
    after (lookUpFunction package module name m) =
      { m with functionLookups := m.functionLookups + 1 } := by
  have counted : (modify fun m => { m with functionLookups := m.functionLookups + 1 } :
      ChainRequest MemoryChain Unit) m = .ok () { m with functionLookups := m.functionLookups + 1 } := rfl
  unfold lookUpFunction
  rw [bind_of_ok counted, get_bind]
  dsimp only
  cases m.functions.find? (fun entry => entry.1 == MoveFunction.fullName package module name) <;> rfl

theorem after_coins (owner : Address) (type cursor : Option String) (limit : Option Nat)
    (m : MemoryChain) : after (channel.coins owner type cursor limit m) = m := by
  have run : channel.coins owner type cursor limit m =
      ofExcept (m.listCoins owner type cursor limit) m := rfl
  rw [run]
  cases m.listCoins owner type cursor limit <;> rfl

theorem Event.next_adds (e : Event) (m : MemoryChain) : Adds m (e.next m) := by
  cases e with
  | execute tx signatures options => exact (execute_cases m tx signatures options).adds
  | dryRun tx =>
    have run : (Event.dryRun tx).next m = after (MemoryChain.dryRun tx m) := rfl
    rw [run]
    rcases dryRun_cases m tx with ⟨e, -, ended⟩ | ⟨data, r, -, ended⟩
    · rw [ended]
      exact .nothing m rfl rfl
    · rw [ended]
      exact .trial tx
  | function package module name =>
    have run : (Event.function package module name).next m =
        after (lookUpFunction package module name m) := rfl
    rw [run, after_lookUpFunction]
    exact .nothing _ rfl rfl
  | coins owner type cursor limit =>
    have run : (Event.coins owner type cursor limit).next m =
        after (channel.coins owner type cursor limit m) := rfl
    rw [run, after_coins]
    exact .nothing m rfl rfl
  | gasPrice | object | objects => exact .nothing m rfl rfl
  | setObject | addCoin | addFunction | setGasPrice | setCost | failWith | setPageSize =>
    exact .nothing _ rfl rfl

/-! ### What holds of the records -/

/-- The records of a chain on which no transaction was accepted twice. -/
structure Unreplayed (m : MemoryChain) : Prop where
  distinct : (m.submissions.map (·.digest)).Nodup
  genuine : ∀ s ∈ m.submissions, s.Genuine

theorem unreplayed_empty : empty.Unreplayed :=
  ⟨List.nodup_nil, nofun⟩

theorem Adds.unreplayed {m t : MemoryChain} (adds : Adds m t) (h : m.Unreplayed) : t.Unreplayed := by
  cases adds with
  | nothing t submissions dryRuns =>
    constructor
    · rw [submissions]
      exact h.distinct
    · rw [submissions]
      exact h.genuine
  | trial tx => exact ⟨h.distinct, h.genuine⟩
  | submission s genuine fresh =>
    constructor
    · rw [List.map_append]
      refine List.nodup_append.mpr ⟨h.distinct, List.pairwise_singleton _ _, ?_⟩
      intro old inside new added same
      rw [List.map_singleton, List.mem_singleton] at added
      exact fresh (added ▸ same ▸ inside)
    · intro other inside
      rcases List.mem_append.mp inside with old | new
      · exact h.genuine other old
      · rw [List.mem_singleton.mp new]
        exact genuine

theorem Adds.keeps {m t : MemoryChain} (adds : Adds m t) :
    m.submissions <+: t.submissions ∧ m.dryRuns <+: t.dryRuns := by
  cases adds with
  | nothing t submissions dryRuns =>
    rw [submissions, dryRuns]
    exact ⟨List.prefix_refl _, List.prefix_refl _⟩
  | trial tx => exact ⟨List.prefix_refl _, List.prefix_append _ _⟩
  | submission s genuine fresh => exact ⟨List.prefix_append _ _, List.prefix_refl _⟩

theorem foldl_keeps (events : List Event) {m : MemoryChain} (h : m.Unreplayed) :
    (events.foldl (fun m e => e.next m) m).Unreplayed ∧
      m.submissions <+: (events.foldl (fun m e => e.next m) m).submissions ∧
      m.dryRuns <+: (events.foldl (fun m e => e.next m) m).dryRuns := by
  induction events generalizing m with
  | nil => exact ⟨h, List.prefix_refl _, List.prefix_refl _⟩
  | cons e rest ih =>
    have adds := e.next_adds m
    obtain ⟨unreplayed, submissions, dryRuns⟩ := ih (adds.unreplayed h)
    exact ⟨unreplayed, adds.keeps.1.trans submissions, adds.keeps.2.trans dryRuns⟩

theorem execute_refused_iff {m : MemoryChain} {tx : String} {signatures : List String}
    {options : ExecuteOptions} :
    (∃ e t, execute tx signatures options m = .error e t) ↔
      (∀ data : TransactionData, ¬ data.IsText tx) ∨ signatures = [] ∨
        ∃ data : TransactionData, data.IsText tx ∧ data.digest ∈ m.submissions.map (·.digest) := by
  have executed := execute_cases m tx signatures options
  generalize execute tx signatures options m = r at executed
  cases executed with
  | undecodable e unread => exact ⟨fun _ => Or.inl unread, fun _ => ⟨e, m, rfl⟩⟩
  | unsigned data text none => exact ⟨fun _ => Or.inr (Or.inl none), fun _ => ⟨_, m, rfl⟩⟩
  | replayed data text signed recorded =>
    exact ⟨fun _ => Or.inr (Or.inr ⟨data, text, recorded⟩), fun _ => ⟨_, m, rfl⟩⟩
  | accepted data text signed fresh r =>
    constructor
    · rintro ⟨e, t, failed⟩
      cases failed
    · rintro (unread | none | ⟨other, text', recorded⟩)
      · exact absurd text (unread data)
      · exact absurd none signed
      · -- The text is that of one transaction only.
        have same := (decodeTransaction_ok_iff.mpr text').symm.trans (decodeTransaction_ok_iff.mpr text)
        rw [Except.ok.inj same] at recorded
        exact absurd recorded fresh

/-- No transaction is accepted twice. Whatever clients ask of a chain and in whatever order, the records
have different digests, each that of the transaction in its text, and are signed, and later events add
to them only at their end. A request is refused exactly when its text is that of no transaction, or it
has no signature, or its digest is on record; what is accepted is recorded, and what is refused changes
nothing. -/
theorem run_unreplayed (before later : List Event) :
    let m := run before
    m.Unreplayed ∧
      (m.submissions <+: (run (before ++ later)).submissions ∧
        m.dryRuns <+: (run (before ++ later)).dryRuns) ∧
      (∀ tx signatures options,
        ((∃ e t, channel.execute tx signatures options m = .error e t) ↔
          (∀ data : TransactionData, ¬ data.IsText tx) ∨ signatures = [] ∨
            ∃ data : TransactionData, data.IsText tx ∧ data.digest ∈ m.submissions.map (·.digest)) ∧
        (∀ e t, channel.execute tx signatures options m = .error e t → t = m) ∧
        ∀ r t, channel.execute tx signatures options m = .ok r t →
          ∃ data : TransactionData, data.IsText tx ∧ r.digest = data.digest ∧
            t = { m with submissions := m.submissions ++ [⟨tx, signatures, options, data.digest⟩] }) ∧
      ∀ tx,
        ((∃ e t, channel.dryRun tx m = .error e t) ↔ ∀ data : TransactionData, ¬ data.IsText tx) ∧
        (∀ e t, channel.dryRun tx m = .error e t → t = m) ∧
        ∀ r t, channel.dryRun tx m = .ok r t → t = { m with dryRuns := m.dryRuns ++ [tx] } := by
  have unreplayed := (foldl_keeps before unreplayed_empty).1
  refine ⟨unreplayed, ?_, ?_, ?_⟩
  · rw [run_append]
    exact (foldl_keeps later unreplayed).2
  · intro tx signatures options
    refine ⟨execute_refused_iff, ?_, ?_⟩
    · intro e t failed
      have executed := execute_cases (run before) tx signatures options
      rw [show execute tx signatures options (run before) = _ from failed] at executed
      cases executed <;> rfl
    · intro r t done
      have executed := execute_cases (run before) tx signatures options
      rw [show execute tx signatures options (run before) = _ from done] at executed
      cases executed with
      | accepted data text signed fresh r digest => exact ⟨data, text, digest, rfl⟩
  · intro tx
    rcases dryRun_cases (run before) tx with ⟨e, unread, ended⟩ | ⟨data, r, text, ended⟩
    · have ended : channel.dryRun tx (run before) = _ := ended
      rw [ended]
      refine ⟨⟨fun _ => unread, fun _ => ⟨e, _, rfl⟩⟩, ?_, nofun⟩
      rintro e' t ⟨⟩
      rfl
    · have ended : channel.dryRun tx (run before) = _ := ended
      rw [ended]
      refine ⟨⟨nofun, fun unread => absurd text (unread data)⟩, nofun, ?_⟩
      rintro r' t ⟨⟩
      rfl

end MemoryChain

end MoveTx
