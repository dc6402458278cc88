import MoveTx.Proofs.Builder.Finish
import MoveTx.Proofs.Builder.Run
import MoveTx.Proofs.Transaction.Validation

/-!
# Runs that use their own handles

In a scoped run the commands take only handles that the run gave back before. Such a run never builds a
reference to nothing, so it can be finalized as soon as its objects are resolved and its bounds are kept.
A builder that was finalized changes no more.
-/

namespace MoveTx
open Step

/-- The gas coin, a handle that was given, or one of several results of a command that was given. -/
inductive Argument.InScope (given : List Argument) : Argument → Prop
  | gasCoin : InScope given .gasCoin
  | handle {a : Argument} (known : a ∈ given) : InScope given a
  | nested {j k : UInt16} (known : .result j ∈ given) : InScope given (.nestedResult j k)

/-- Errors about an argument that names nothing. -/
def BuilderError.IsDangling : BuilderError → Prop
  | inputOutOfBounds _ _ _ | forwardReference _ _ => True
  | _ => False

namespace BuilderOp

variable {op : BuilderOp} {b : Builder}

/-- The command that an operation does append. -/
def appended? (op : BuilderOp) (b : Builder) : Option Command :=
  if (op.handle? b).isSome then op.command? else none

/-- The commands that a sequence of operations appends, from a builder on. -/
def appended (b : Builder) : List BuilderOp → List Command
  | [] => []
  | op :: rest => (op.appended? b).toList ++ appended (op.next b) rest

def ScopedFrom (b : Builder) (given : List Argument) : List BuilderOp → Prop
  | [] => True
  | op :: rest =>
    (∀ c, op.appended? b = some c → ∀ a ∈ c.arguments, a.InScope given) ∧
      ScopedFrom (op.next b) (given ++ (op.handle? b).toList) rest

/-- Whether every argument of a command that a run appends comes from the run. -/
def Scoped (ops : List BuilderOp) : Prop :=
  ScopedFrom .empty [] ops

/-- All operations but the one that only looks. -/
def Mutates : BuilderOp → Prop
  | inspect => False
  | _ => True

theorem command?_of_appended? {c : Command} (appends : op.appended? b = some c) :
    op.command? = some c := by
  unfold appended? at appends
  split at appends
  · exact appends
  · cases appends

end BuilderOp

/-! ### Linked builders -/

/-- Whether an argument names something that the builder has. -/
def Builder.Knows (b : Builder) (a : Argument) : Prop :=
  a.check b.commands.length b.inputs.length = .ok ()

/-- Whether no command of the builder names something that comes later or never. -/
def Builder.Linked (b : Builder) : Prop :=
  checkCommands b.inputs.length 0 b.commands = .ok ()

namespace Builder

variable {b c : Builder}

theorem Extends.inputs_le (ext : b.Extends c) : b.inputs.length ≤ c.inputs.length := by
  have le := ext.keys.length_le
  unfold Builder.keys at le
  rwa [List.length_map, List.length_map] at le

theorem knows_input {i : UInt16} : b.Knows (.input i) ↔ i.toNat < b.inputs.length := by
  simp [Knows, Argument.check]

theorem knows_result {j : UInt16} : b.Knows (.result j) ↔ j.toNat < b.commands.length := by
  simp [Knows, Argument.check]

theorem Knows.mono {a : Argument} (ext : b.Extends c) (known : b.Knows a) : c.Knows a := by
  have commands := ext.commands.length_le
  have inputs := ext.inputs_le
  cases a with
  | gasCoin => rfl
  | input i =>
    rw [knows_input] at known ⊢
    omega
  | result j | nestedResult j k =>
    have known : b.Knows (.result j) := known
    refine knows_result.mpr ?_
    rw [knows_result] at known
    omega

theorem Knows.of_scope {given : List Argument} (known : ∀ a ∈ given, b.Knows a) {a : Argument}
    (scope : a.InScope given) : b.Knows a := by
  cases scope with
  | gasCoin => rfl
  | handle inside => exact known a inside
  | nested inside =>
    have result := known _ inside
    exact result

end Builder

namespace BuilderOp

variable {op : BuilderOp} {b : Builder}

/-- A handle that an operation gives back names something from then on. -/
theorem handle_known (h : b.WellFormed) {a : Argument} (given : op.handle? b = some a) :
    (op.next b).Knows a := by
  have answered := answer_ok_iff.mpr (handle?_eq_some_iff.mp given)
  have outcome := step_outcome h op
  rw [answer_ok_iff.mp answered] at outcome
  cases a with
  | gasCoin => rfl
  | input i =>
    obtain ⟨key, -, place⟩ := input_place h answered
    have inside := (List.getElem?_eq_some_iff.mp place).1
    exact Builder.knows_input.mpr (by simpa [Builder.keys] using inside)
  | result j =>
    obtain ⟨c, -, -, place⟩ := result_place h answered
    exact Builder.knows_result.mpr (List.getElem?_eq_some_iff.mp place).1
  | nestedResult j k =>
    generalize op.next b = t at outcome ⊢
    cases outcome with
    | admitted key _ _ _ admission =>
      obtain ⟨i, other, -⟩ := admission.handle
      cases other

theorem next_commands (h : b.WellFormed) (op : BuilderOp) :
    (op.next b).commands = b.commands ++ (op.appended? b).toList := by
  have outcome := step_outcome h op
  unfold appended? handle? answer next
  generalize op.step b = r at outcome ⊢
  cases outcome with
  | refused e t evolves inputs commands => simp [after, commands]
  | admitted key a t names admission =>
    have none : op.command? = none := by cases op <;> first | rfl | cases names
    have commands : t.commands = b.commands := by cases admission <;> assumption
    simp [after, none, commands]
  | appended c names room => simp [after, names]
  | filled t filling =>
    cases filling <;> simp [after, Builder.setSlot]
  | inspected kind => simp [after]
  | closed t => simp [after]

/-- What a step appends to a linked builder is linked if its arguments are known. -/
theorem next_linked (h : b.WellFormed) (linked : b.Linked)
    (scope : ∀ c, op.appended? b = some c → ∀ a ∈ c.arguments, b.Knows a) :
    (op.next b).Linked := by
  have inputs := (next_keeps h op).2.inputs_le
  unfold Builder.Linked
  rw [next_commands h op]
  cases appends : op.appended? b with
  | none =>
    rw [Option.toList_none, List.append_nil]
    exact checkCommands_mono inputs linked
  | some c =>
    refine checkCommands_mono inputs (checkCommands_concat.mpr ⟨linked, ?_⟩)
    exact scope c appends

theorem foldl_linked {given : List Argument} {ops : List BuilderOp} (h : b.WellFormed)
    (linked : b.Linked) (known : ∀ a ∈ given, b.Knows a) (own : ScopedFrom b given ops) :
    (ops.foldl (fun b op => op.next b) b).Linked := by
  induction ops generalizing b given with
  | nil => exact linked
  | cons op rest ih =>
    obtain ⟨here, later⟩ := own
    obtain ⟨wellFormed, ext⟩ := next_keeps h op
    apply ih wellFormed _ _ later
    · exact next_linked h linked fun c appends a inside => .of_scope known (here c appends a inside)
    · intro a inside
      rcases List.mem_append.mp inside with old | new
      · exact (known a old).mono ext
      · exact handle_known h (Option.mem_toList.mp new)

theorem run_linked {ops : List BuilderOp} (own : Scoped ops) : (run ops).Linked :=
  foldl_linked Builder.wellFormed_empty rfl (fun _ inside => absurd inside List.not_mem_nil) own

theorem foldl_commands (ops : List BuilderOp) (h : b.WellFormed) :
    (ops.foldl (fun b op => op.next b) b).commands = b.commands ++ appended b ops := by
  induction ops generalizing b with
  | nil => exact (List.append_nil _).symm
  | cons op rest ih =>
    rw [List.foldl_cons, ih (next_keeps h op).1, next_commands h op, List.append_assoc]
    rfl

theorem run_commands (ops : List BuilderOp) : (run ops).commands = appended .empty ops :=
  foldl_commands ops Builder.wellFormed_empty

/-! ### Both ways out of a linked builder -/

theorem linked_checkReferences (linked : b.Linked) {t : ProgrammableTransaction}
    (taken : b.snapshot = .ok t) : t.checkReferences = .ok () := by
  unfold ProgrammableTransaction.checkReferences
  rw [Builder.snapshot_inputs_length taken, (Builder.snapshot_ok taken).2]
  exact linked

theorem answer_inspect (b : Builder) :
    answer .inspect b = (b.inspect >>= fun kind => .ok (.kind kind)) := by
  unfold answer
  rw [step, get_bind]
  cases b.inspect with
  | ok kind => rfl
  | error e => rfl

theorem inspect_linked (linked : b.Linked) :
    b.inspect = (b.snapshot >>= fun t => .ok (.programmable t)) := by
  unfold Builder.inspect
  cases taken : b.snapshot with
  | error e => rfl
  | ok t =>
    change (t.checkReferences >>= fun _ => Except.ok (TransactionKind.programmable t)) = _
    rw [linked_checkReferences linked taken]
    rfl

/-- Only open builders are finalized, and then only what is valid. -/
theorem answer_finalize (isOpen : b.finalized = false) :
    answer .finalize b =
      (b.snapshot >>= fun t => t.validate >>= fun _ => .ok (.transaction t)) := by
  have run : step .finalize b = (BuilderAnswer.transaction <$> Builder.finalize) b := rfl
  have ends := Builder.finalize_run isOpen
  unfold answer
  rw [run]
  cases taken : b.snapshot with
  | error e =>
    rw [taken] at ends
    rw [map_of_error ends]
    rfl
  | ok t =>
    change _ = t.validate >>= _
    simp only [taken] at ends
    cases valid : t.validate with
    | error e =>
      rw [valid] at ends
      rw [map_of_error ends]
      rfl
    | ok _ =>
      rw [valid] at ends
      rw [map_of_ok ends]
      rfl

theorem step_closed (closed : b.finalized = true) (mutates : op.Mutates) :
    ∃ e, op.step b = .error e b := by
  cases op with
  | inspect => exact mutates.elim
  | makeMoveVec elementType elements =>
    have run : ∃ e, Builder.makeMoveVec elementType elements b = .error e b := by
      unfold Builder.makeMoveVec
      split
      · exact ⟨_, rfl⟩
      · exact ⟨_, Builder.closed_run closed⟩
    obtain ⟨e, failed⟩ := run
    exact ⟨e, map_of_error failed⟩
  | _ => exact ⟨_, map_of_error (Builder.closed_run closed)⟩

theorem next_closed (closed : b.finalized = true) (op : BuilderOp) : op.next b = b := by
  by_cases mutates : op.Mutates
  · obtain ⟨e, failed⟩ := step_closed closed mutates
    exact congrArg after failed
  · cases op with
    | inspect =>
      unfold next
      rw [step, get_bind]
      cases b.inspect with
      | ok kind => rfl
      | error e => rfl
    | _ => exact absurd trivial mutates

theorem foldl_closed (closed : b.finalized = true) (ops : List BuilderOp) :
    ops.foldl (fun b op => op.next b) b = b := by
  induction ops with
  | nil => rfl
  | cons op rest ih => rw [List.foldl_cons, next_closed closed, ih]

theorem finalize_ok {t : ProgrammableTransaction}
    (answered : answer .finalize b = .ok (.transaction t)) :
    b.finalized = false ∧ b.snapshot = .ok t ∧ t.validate = .ok () ∧
      next .finalize b = { b with finalized := true } := by
  have ran := answer_ok_iff.mp answered
  rcases Builder.finalize_cases b with ⟨e, failed⟩ | ⟨t', isOpen, taken, valid, closes⟩
  · have run : step .finalize b = .error e b := map_of_error failed
    cases run.symm.trans ran
  · have run : step .finalize b = .ok (.transaction t') { b with finalized := true } :=
      map_of_ok closes
    obtain ⟨same, next⟩ := EStateM.Result.ok.inj (run.symm.trans ran)
    obtain rfl := BuilderAnswer.transaction.inj same
    exact ⟨isOpen, taken, valid, next.symm⟩

theorem not_dangling_of_snapshot {e : BuilderError} (failed : b.snapshot = .error e) :
    ¬ e.IsDangling := by
  obtain ⟨id, rfl⟩ := Builder.snapshot_error failed
  exact fun dangling => dangling

theorem inspect_not_dangling (linked : b.Linked) {e : BuilderError}
    (failed : answer .inspect b = .error e) : ¬ e.IsDangling := by
  rw [answer_inspect, inspect_linked linked] at failed
  rcases except_bind_error_iff.mp failed with inspected | ⟨_, -, done⟩
  · rcases except_bind_error_iff.mp inspected with lacks | ⟨_, -, done⟩
    · exact not_dangling_of_snapshot lacks
    · cases done
  · cases done

theorem finalize_not_dangling (linked : b.Linked) {e : BuilderError}
    (failed : answer .finalize b = .error e) : ¬ e.IsDangling := by
  cases closed : b.finalized with
  | true =>
    have run : step .finalize b = .error .alreadyFinalized b :=
      map_of_error (Builder.closed_run closed)
    unfold answer at failed
    rw [run] at failed
    obtain rfl := Except.error.inj failed
    exact fun dangling => dangling
  | false =>
    rw [answer_finalize closed] at failed
    rcases except_bind_error_iff.mp failed with lacks | ⟨t, taken, checked⟩
    · exact not_dangling_of_snapshot lacks
    · rcases except_bind_error_iff.mp checked with invalid | ⟨_, -, done⟩
      · rcases ProgrammableTransaction.validate_error (linked_checkReferences linked taken) invalid with
          rfl | ⟨limit, rfl⟩
        · exact fun dangling => dangling
        · exact fun dangling => dangling
      · cases done

theorem finalize_succeeds_iff (h : b.WellFormed) (linked : b.Linked) :
    (∃ t, answer .finalize b = .ok (.transaction t)) ↔
      b.finalized = false ∧ b.commands ≠ [] ∧ b.unresolvedIds = [] ∧
        ∀ bytes, .resolved (.pure bytes) ∈ b.slots → bytes.length ≤ maxPureBytes := by
  constructor
  · rintro ⟨t, answered⟩
    obtain ⟨isOpen, taken, valid, -⟩ := finalize_ok answered
    obtain ⟨slots, commands⟩ := Builder.snapshot_ok taken
    obtain ⟨some, -, -, small, -⟩ := ProgrammableTransaction.validate_ok_iff.mp valid
    refine ⟨isOpen, commands ▸ some, Builder.exists_snapshot_iff.mp ⟨t, taken⟩, ?_⟩
    intro bytes inside
    rw [slots] at inside
    obtain ⟨arg, member, same⟩ := List.mem_map.mp inside
    obtain rfl := InputSlot.resolved.inj same
    exact small bytes member
  · rintro ⟨isOpen, some, resolved, small⟩
    obtain ⟨t, taken⟩ := Builder.exists_snapshot_iff.mpr resolved
    obtain ⟨slots, commands⟩ := Builder.snapshot_ok taken
    have count := Builder.snapshot_inputs_length taken
    -- The bounds on counts hold of every well-formed builder, the references of every linked one.
    have valid : t.validate = .ok () := by
      refine ProgrammableTransaction.validate_ok_iff.mpr
        ⟨commands ▸ some, commands ▸ h.commands_le, count ▸ h.inputs_le, ?_,
          linked_checkReferences linked taken⟩
      intro bytes inside
      apply small
      rw [slots]
      exact List.mem_map_of_mem inside
    rw [answer_finalize isOpen]
    exact ⟨t, except_bind_ok_iff.mpr ⟨t, taken, except_bind_ok_iff.mpr ⟨(), valid, rfl⟩⟩⟩

/-- Handles are sound. A run that uses its own handles never fails for a reference to nothing. It is
finalized exactly when it is open, has commands, lacks no object and holds no pure input that is too
long. Then the result has its inputs and commands in order, the same as on inspection, and from then on
every operation that would change something fails. -/
theorem finalize_scoped (ops : List BuilderOp) (own : Scoped ops) :
    (∀ (op : BuilderOp) (e : BuilderError), op = .finalize ∨ op = .inspect →
        op.answer (run ops) = .error e → ¬ e.IsDangling) ∧
      ((∃ t, answer .finalize (run ops) = .ok (.transaction t)) ↔
        (run ops).finalized = false ∧ (run ops).commands ≠ [] ∧ (run ops).unresolvedIds = [] ∧
          ∀ bytes, .resolved (.pure bytes) ∈ (run ops).slots → bytes.length ≤ maxPureBytes) ∧
      ∀ t, answer .finalize (run ops) = .ok (.transaction t) →
        (run ops).slots = t.inputs.map .resolved ∧ t.commands = appended .empty ops ∧
          answer .inspect (run ops) = .ok (.kind (.programmable t)) ∧
          ∀ (later : List BuilderOp) (op : BuilderOp), op.Mutates →
            run (ops ++ .finalize :: later) = run (ops ++ [.finalize]) ∧
              ∃ e, op.step (run (ops ++ .finalize :: later)) =
                .error e (run (ops ++ .finalize :: later)) := by
  have wellFormed := run_wellFormed ops
  have linked := run_linked own
  refine ⟨?_, finalize_succeeds_iff wellFormed linked, ?_⟩
  · rintro op e (rfl | rfl) failed
    · exact finalize_not_dangling linked failed
    · exact inspect_not_dangling linked failed
  · intro t answered
    obtain ⟨-, taken, -, closes⟩ := finalize_ok answered
    obtain ⟨slots, commands⟩ := Builder.snapshot_ok taken
    refine ⟨slots, commands.trans (run_commands ops), ?_, ?_⟩
    · rw [answer_inspect, inspect_linked linked, taken]
      rfl
    · intro later op mutates
      have closed : (next .finalize (run ops)).finalized = true := congrArg Builder.finalized closes
      have stays : ∀ later, run (ops ++ .finalize :: later) = next .finalize (run ops) := by
        intro later
        rw [run_append, List.foldl_cons, foldl_closed closed]
      rw [stays later, stays []]
      exact ⟨rfl, step_closed closed mutates⟩

/-- Splits a coin off the gas coin and sends it. The amount is admitted twice and shared. -/
def sendsSplit : List BuilderOp :=
  [.pureBytes ⟨[7, 0], .integer⟩, .objectId .clock, .uniquePure ⟨[7, 0], .integer⟩,
    .command (.splitCoins .gasCoin [.input 0, .input 2]), .pureBytes ⟨[7, 0], .integer⟩,
    .command (.transferObjects [.nestedResult 0 1, .result 0] (.input 0)),
    .resolve (.shared ⟨.clock, 1, false⟩)]

theorem sendsSplit_scoped : Scoped sendsSplit := by
  have quiet : ∀ {op : BuilderOp} {b : Builder} {given : List Argument}, op.command? = none →
      ∀ c, op.appended? b = some c → ∀ a ∈ c.arguments, a.InScope given := by
    intro op b given none c appends
    cases none.symm.trans (command?_of_appended? appends)
  refine ⟨quiet rfl, quiet rfl, quiet rfl, ?_, quiet rfl, ?_, quiet rfl, trivial⟩
  · intro c appends
    obtain rfl := Option.some.inj (command?_of_appended? appends)
    intro a inside
    simp only [Command.arguments, List.mem_cons, List.not_mem_nil, or_false] at inside
    rcases inside with rfl | rfl | rfl
    · exact .gasCoin
    · exact .handle (by decide)
    · exact .handle (by decide)
  · intro c appends
    obtain rfl := Option.some.inj (command?_of_appended? appends)
    intro a inside
    simp only [Command.arguments, List.cons_append, List.nil_append, List.mem_cons,
      List.not_mem_nil, or_false] at inside
    rcases inside with rfl | rfl | rfl
    · exact .nested (by decide)
    · exact .handle (by decide)
    · exact .handle (by decide)

theorem sendsSplit_finalize :
    Scoped sendsSplit ∧ ∃ t, answer .finalize (run sendsSplit) = .ok (.transaction t) ∧
      (run sendsSplit).slots = t.inputs.map .resolved ∧ t.commands.length = 2 ∧
        answer .inspect (run sendsSplit) = .ok (.kind (.programmable t)) := by
  obtain ⟨-, succeeds, result⟩ := finalize_scoped sendsSplit sendsSplit_scoped
  have small : ∀ bytes, .resolved (.pure bytes) ∈ (run sendsSplit).slots →
      bytes.length ≤ maxPureBytes := by
    intro bytes inside
    have slots : (run sendsSplit).slots = [.resolved (.pure [7, 0]),
      .resolved (.object (.shared ⟨.clock, 1, false⟩)), .resolved (.pure [7, 0])] := rfl
    rw [slots] at inside
    obtain rfl : bytes = [7, 0] := by simpa using inside
    decide
  obtain ⟨t, answered⟩ := succeeds.mpr ⟨rfl, by decide, rfl, small⟩
  obtain ⟨slots, commands, inspected, -⟩ := result t answered
  refine ⟨sendsSplit_scoped, t, answered, slots, ?_, inspected⟩
  rw [commands]
  rfl

end BuilderOp

end MoveTx
