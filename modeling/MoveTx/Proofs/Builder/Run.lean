import MoveTx.Proofs.Builder.Operation

/-!
# Runs of a builder

A run is any sequence of operations on a builder that starts empty. Operations that fail are part of it.
Every state of a run is well formed, later states extend earlier ones, and a handle that was given back
means the same input or command for the rest of the run.
-/

namespace MoveTx
open Step

/-- An operation on a builder. Those that only append one kind of command are `command`s. -/
inductive BuilderOp
  | pure (value : PureValue)
  | pureBytes (value : PureBytes)
  | uniquePure (value : PureBytes)
  | object (arg : ObjectArg)
  | objectId (id : Address)
  | markReceiving (arg : Argument)
  | resolve (arg : ObjectArg)
  | command (c : Command)
  | makeMoveVec (elementType : Option TypeTag) (elements : List Argument)
  | moveCall (package : Address) (module function : Identifier) (typeArguments : List TypeTag)
    (arguments : List Argument)
  | inspect
  | finalize

inductive BuilderAnswer
  | done
  | handle (a : Argument)
  | kind (kind : TransactionKind)
  | transaction (t : ProgrammableTransaction)
  deriving DecidableEq

namespace BuilderOp

def step : BuilderOp → BuilderStep BuilderAnswer
  | pure value => .handle <$> Builder.pure value
  | pureBytes value => .handle <$> Builder.pureBytes value
  | uniquePure value => .handle <$> Builder.uniquePure value
  | object arg => .handle <$> Builder.object arg
  | objectId id => .handle <$> Builder.objectId id
  | markReceiving arg => (fun _ => .done) <$> Builder.markReceiving arg
  | resolve arg => (fun _ => .done) <$> Builder.resolve arg
  | command c => .handle <$> Builder.command c
  | makeMoveVec elementType elements => .handle <$> Builder.makeMoveVec elementType elements
  | moveCall package module function typeArguments arguments =>
    .handle <$> Builder.moveCall package module function typeArguments arguments
  | inspect => do
    match (← get).inspect with
    | .ok kind => return .kind kind
    | .error e => throw e
  | finalize => .transaction <$> Builder.finalize

/-- The state after an operation, whether or not it fails. -/
def next (op : BuilderOp) (b : Builder) : Builder :=
  after (op.step b)

def answer (op : BuilderOp) (b : Builder) : Except BuilderError BuilderAnswer :=
  match op.step b with
  | .ok a _ => .ok a
  | .error e _ => .error e

def handle? (op : BuilderOp) (b : Builder) : Option Argument :=
  match op.answer b with
  | .ok (.handle a) => some a
  | _ => none

/-- The key of the input that an operation admits. -/
def key? (op : BuilderOp) (b : Builder) : Option InputKey :=
  match op with
  | pure value => some (.pure value.encoded.bytes value.encoded.origin)
  | pureBytes value => some (.pure value.bytes value.origin)
  | uniquePure _ => some (.unique b.nonce)
  | object arg => some (.object arg.id)
  | objectId id => some (.object id)
  | _ => none

/-- The key that an operation does admit. -/
def admittedKey? (op : BuilderOp) (b : Builder) : Option InputKey :=
  if (op.handle? b).isSome then op.key? b else none

/-- The command that an operation appends. -/
def command? : BuilderOp → Option Command
  | command c => some c
  | makeMoveVec elementType elements => some (.makeMoveVec elementType elements)
  | moveCall package module function typeArguments arguments =>
    some (.moveCall ⟨package, module, function, typeArguments, arguments⟩)
  | _ => none

/-- Whether an operation is to admit an input that is never shared. -/
def standsAlone : BuilderOp → Bool
  | uniquePure _ => true
  | _ => false

/-- Operations that neither name an object nor close the builder. -/
def Plain : BuilderOp → Prop
  | object _ | objectId _ | resolve _ | finalize => False
  | _ => True

/-- How an operation may end. Only admissions and commands give handles. -/
inductive Outcome (op : BuilderOp) (b : Builder) :
    EStateM.Result BuilderError Builder BuilderAnswer → Prop
  | refused (e : BuilderError) (t : Builder) (evolves : b.Evolves t) (inputs : t.inputs = b.inputs)
      (commands : t.commands = b.commands) : Outcome op b (.error e t)
  | admitted (key : InputKey) (a : Argument) (t : Builder) (names : op.key? b = some key)
      (admission : b.Admission key (.ok a t)) : Outcome op b (.ok (.handle a) t)
  | appended (c : Command) (names : op.command? = some c) (room : b.commands.length < maxCommands) :
      Outcome op b (.ok (.handle (.result (UInt16.ofNat b.commands.length)))
        { b with commands := b.commands ++ [c] })
  | filled (t : Builder) (filling : b.Filling (.ok () t)) : Outcome op b (.ok .done t)
  | inspected (kind : TransactionKind) : Outcome op b (.ok (.kind kind) b)
  | closed (t : ProgrammableTransaction) :
      Outcome op b (.ok (.transaction t) { b with finalized := true })

variable {op : BuilderOp} {b : Builder}

theorem outcome_of_admission {key : InputKey} {x : BuilderStep Argument} (names : op.key? b = some key)
    (run : op.step = .handle <$> x) (admission : b.Admission key (x b)) : Outcome op b (op.step b) := by
  rw [run]
  cases ended : x b with
  | ok a t =>
    rw [ended] at admission
    rw [map_of_ok ended]
    exact .admitted key a t names admission
  | error e t =>
    rw [ended] at admission
    rw [map_of_error ended]
    cases admission with
    | refused _ _ evolves inputs commands => exact .refused e t evolves inputs commands

theorem outcome_of_command {c : Command} (names : op.command? = some c)
    (run : op.step b = (.handle <$> Builder.command c) b) : Outcome op b (op.step b) := by
  rw [run]
  rcases Builder.command_cases c b with ⟨e, ended⟩ | ⟨room, ended⟩
  · rw [map_of_error ended]
    exact .refused e b .refl rfl rfl
  · rw [map_of_ok ended]
    exact .appended c names room

theorem outcome_of_filling {x : BuilderStep Unit} (run : op.step = (fun _ => .done) <$> x)
    (filling : b.Filling (x b)) : Outcome op b (op.step b) := by
  rw [run]
  cases ended : x b with
  | ok a t =>
    rw [ended] at filling
    rw [map_of_ok ended]
    exact .filled t filling
  | error e t =>
    rw [ended] at filling
    rw [map_of_error ended]
    cases filling with
    | refused => exact .refused e b .refl rfl rfl

/-- Everything that an operation can do to a well-formed builder. -/
theorem step_outcome (h : b.WellFormed) (op : BuilderOp) : Outcome op b (op.step b) := by
  cases op with
  | pure value => exact outcome_of_admission rfl rfl (Builder.pureBytes_admission value.encoded b)
  | pureBytes value => exact outcome_of_admission rfl rfl (Builder.pureBytes_admission value b)
  | uniquePure value => exact outcome_of_admission rfl rfl (Builder.uniquePure_admission value b)
  | object arg => exact outcome_of_admission rfl rfl (Builder.object_admission h arg)
  | objectId id => exact outcome_of_admission rfl rfl (Builder.objectId_admission id b)
  | markReceiving arg =>
    exact outcome_of_filling rfl (Builder.markReceiving_filling h arg)
  | resolve arg => exact outcome_of_filling rfl (Builder.resolve_filling arg b)
  | command c => exact outcome_of_command rfl rfl
  | moveCall package module function typeArguments arguments => exact outcome_of_command rfl rfl
  | makeMoveVec elementType elements =>
    by_cases empty : (elements.isEmpty && elementType.isNone) = true
    · have run : Builder.makeMoveVec elementType elements b = .error .vectorEmpty b := by
        unfold Builder.makeMoveVec
        rw [if_pos empty]
        rfl
      rw [show step (.makeMoveVec elementType elements) b = _ from map_of_error run]
      exact .refused _ b .refl rfl rfl
    · have run : Builder.makeMoveVec elementType elements =
          Builder.command (.makeMoveVec elementType elements) := by
        unfold Builder.makeMoveVec
        rw [if_neg empty]
      exact outcome_of_command rfl (congrFun (congrArg (BuilderAnswer.handle <$> ·) run) b)
  | inspect =>
    have run : step .inspect b = (match b.inspect with
        | .ok kind => return .kind kind
        | .error e => throw e : BuilderStep BuilderAnswer) b := rfl
    rw [run]
    cases b.inspect with
    | ok kind => exact .inspected kind
    | error e => exact .refused e b .refl rfl rfl
  | finalize =>
    rcases Builder.finalize_cases b with ⟨e, ended⟩ | ⟨t, _, _, _, ended⟩
    · rw [show step .finalize b = _ from map_of_error ended]
      exact .refused e b .refl rfl rfl
    · rw [show step .finalize b = _ from map_of_ok ended]
      exact .closed t

theorem Outcome.evolves {r : EStateM.Result BuilderError Builder BuilderAnswer}
    (outcome : Outcome op b r) : b.Evolves (after r) := by
  cases outcome with
  | refused e t evolves inputs commands => exact evolves
  | admitted key a t names admission => exact admission.evolves
  | appended c names room => exact .single (.append c room)
  | filled t filling =>
    cases filling with
    | same => exact .refl
    | fill i id slot place holds => exact .single (.fill i id slot place holds)
  | inspected kind => exact .refl
  | closed t => exact .single .close

theorem next_keeps (h : b.WellFormed) (op : BuilderOp) :
    (op.next b).WellFormed ∧ b.Extends (op.next b) :=
  (step_outcome h op).evolves.keeps h

/-! ### Handles -/

/-- What a step that succeeds leaves is what its operation leaves. -/
theorem next_eq {α : Type} {x : BuilderStep α} {f : α → BuilderAnswer} {a : α} {t : Builder}
    (made : op.step = f <$> x) (run : x b = .ok a t) : op.next b = t := by
  unfold next
  rw [made, map_of_ok run]
  rfl

theorem run_keeps {α : Type} {x : BuilderStep α} {f : α → BuilderAnswer} {a : α} {t : Builder}
    (op : BuilderOp) (h : b.WellFormed) (made : op.step = f <$> x) (run : x b = .ok a t) :
    t.WellFormed ∧ b.Extends t :=
  next_eq made run ▸ next_keeps h op

theorem answer_ok_iff {a : BuilderAnswer} :
    op.answer b = .ok a ↔ op.step b = .ok a (op.next b) := by
  unfold answer next
  cases op.step b with
  | ok a' t => simp [after]
  | error e t => simp

theorem handle?_eq_some_iff {a : Argument} :
    op.handle? b = some a ↔ op.step b = .ok (.handle a) (op.next b) := by
  rw [← answer_ok_iff]
  unfold handle?
  split
  · rename_i a' answered
    rw [answered]
    simp
  · rename_i other
    constructor
    · exact fun none => nomatch none
    · exact fun answered => absurd answered (other a)

/-- Places within the bound on inputs fit a handle. -/
theorem toNat_ofNat_of_le {n count : Nat} (le : count ≤ maxInputs) (below : n < count) :
    (UInt16.ofNat n).toNat = n := by
  have room : maxInputs ≤ UInt16.size := by decide
  exact UInt16.toNat_ofNat_of_lt (Nat.lt_of_lt_of_le below (Nat.le_trans le room))

/-- The handle of an input is the place of the key that was admitted, in full. -/
theorem input_place (h : b.WellFormed) {i : UInt16} (answered : op.answer b = .ok (.handle (.input i))) :
    ∃ key, op.key? b = some key ∧ (op.next b).keys[i.toNat]? = some key := by
  have outcome := step_outcome h op
  have room := (next_keeps h op).1.inputs_le
  rw [answer_ok_iff.mp answered] at outcome
  generalize op.next b = t at outcome room ⊢
  cases outcome with
  | admitted key _ _ names admission =>
    obtain ⟨n, same, place⟩ := admission.handle
    obtain rfl := Argument.input.inj same
    refine ⟨key, names, ?_⟩
    obtain ⟨inside, -⟩ := List.getElem?_eq_some_iff.mp place
    have bound : n < t.inputs.length := by simpa [Builder.keys] using inside
    rw [toNat_ofNat_of_le room bound, place]

/-- The handle of a command is its place, in full. -/
theorem result_place (h : b.WellFormed) {j : UInt16}
    (answered : op.answer b = .ok (.handle (.result j))) :
    ∃ c, op.command? = some c ∧ j.toNat = b.commands.length ∧
      (op.next b).commands[j.toNat]? = some c := by
  have outcome := step_outcome h op
  rw [answer_ok_iff.mp answered] at outcome
  generalize op.next b = t at outcome ⊢
  cases outcome with
  | admitted key _ _ names admission =>
    obtain ⟨n, other, _⟩ := admission.handle
    cases other
  | appended c names below =>
    rw [toNat_ofNat_of_le (by decide : maxCommands ≤ maxInputs) below]
    exact ⟨c, names, rfl, List.getElem?_concat_length⟩

/-! ### Keys and numbers -/

theorem mem_next_keys (h : b.WellFormed) (op : BuilderOp) (key : InputKey) :
    key ∈ (op.next b).keys ↔ key ∈ b.keys ∨ op.admittedKey? b = some key := by
  have outcome := step_outcome h op
  unfold admittedKey? handle? answer next
  generalize op.step b = r at outcome ⊢
  cases outcome with
  | refused e t evolves inputs commands => simp [after, Builder.keys, inputs]
  | admitted k a t names admission =>
    simp only [after, names, Option.isSome_some, if_true, Option.some.injEq]
    cases admission with
    | found i _ _ place keys =>
      rw [keys]
      constructor
      · exact Or.inl
      · rintro (old | rfl)
        · exact old
        · exact List.mem_of_getElem? place
    | added _ _ _ keys =>
      rw [keys, List.mem_append, List.mem_singleton, eq_comm (a := key)]
  | appended c names room =>
    have none : op.key? b = none := by cases op <;> first | rfl | cases names
    simp [after, Builder.keys, none]
  | filled t filling =>
    cases filling with
    | same => simp [after]
    | fill i id slot place holds => simp [after, Builder.keys_setSlot]
  | inspected kind => simp [after]
  | closed t => simp [after, Builder.keys]

theorem next_nonce (h : b.WellFormed) (shared : op.standsAlone = false) : (op.next b).nonce = b.nonce := by
  unfold next
  cases op with
  | uniquePure value => cases shared
  | pure value =>
    rw [step, after_map]
    exact Builder.open_nonce (Builder.insert_nonce _ _ b)
  | pureBytes value =>
    rw [step, after_map]
    exact Builder.open_nonce (Builder.insert_nonce _ _ b)
  | object arg =>
    rw [step, after_map]
    exact Builder.object_nonce arg b
  | objectId id =>
    rw [step, after_map]
    exact Builder.open_nonce
      (Builder.insert_nonce _ _ { b with objectsInUse := Address.insert id b.objectsInUse })
  | markReceiving arg =>
    rw [step, after_map]
    exact (Builder.markReceiving_filling h arg).nonce
  | resolve arg =>
    rw [step, after_map]
    exact (Builder.resolve_filling arg b).nonce
  | command c =>
    rw [step, after_map]
    exact Builder.command_nonce c b
  | moveCall package module function typeArguments arguments =>
    rw [step, after_map]
    exact Builder.command_nonce _ b
  | makeMoveVec elementType elements =>
    rw [step, after_map]
    unfold Builder.makeMoveVec
    split
    · rfl
    · exact Builder.command_nonce _ b
  | inspect =>
    rw [step, get_bind]
    cases b.inspect <;> rfl
  | finalize =>
    rw [step, after_map]
    rcases Builder.finalize_cases b with ⟨e, ended⟩ | ⟨t, -, -, -, ended⟩
    · rw [ended]
      rfl
    · rw [ended]
      rfl

/-- An input that stands alone takes one number, unless the builder is closed. -/
theorem uniquePure_nonce (isOpen : b.finalized = false) (value : PureBytes) :
    ((uniquePure value).next b).nonce = b.nonce + 1 := by
  unfold next
  rw [step, after_map, Builder.uniquePure_run isOpen]
  exact Builder.insert_nonce _ _ { b with nonce := b.nonce + 1 }

theorem next_numbered (h : b.WellFormed) (op : BuilderOp) :
    ∃ count ≤ op.standsAlone.toNat, b.Numbered (op.next b) count := by
  have key_of {number : UInt64} (admits : op.admittedKey? b = some (.unique number)) :
      op.standsAlone = true ∧ number = b.nonce := by
    unfold admittedKey? at admits
    split at admits
    · cases op <;> cases admits
      exact ⟨rfl, rfl⟩
    · cases admits
  cases alone : op.standsAlone with
  | false =>
    refine ⟨0, Nat.le_refl _, ?_, fun number inside => ?_⟩
    · rw [next_nonce h alone]
      exact (UInt64.add_zero _).symm
    · rcases (mem_next_keys h op _).mp inside with old | admits
      · exact Or.inl old
      · cases alone.symm.trans (key_of admits).1
  | true =>
    obtain ⟨value, rfl⟩ : ∃ value, op = uniquePure value := by
      cases op <;> first | exact ⟨_, rfl⟩ | cases alone
    cases closed : b.finalized with
    | true =>
      have same : (uniquePure value).next b = b := by
        unfold next
        rw [step, after_map, show Builder.uniquePure value b = _ from Builder.closed_run closed]
        rfl
      rw [same]
      exact ⟨0, Nat.zero_le _, Builder.numbered_refl b⟩
    | false =>
      refine ⟨1, Nat.le_refl _, uniquePure_nonce closed value, fun number inside => ?_⟩
      rcases (mem_next_keys h _ _).mp inside with old | admits
      · exact Or.inl old
      · exact Or.inr ⟨0, Nat.one_pos, (key_of admits).2.trans (UInt64.add_zero _).symm⟩

/-! ### Runs -/

/-- The state after a sequence of operations on an empty builder. -/
def run (ops : List BuilderOp) : Builder :=
  ops.foldl (fun b op => op.next b) .empty

theorem run_append (before later : List BuilderOp) :
    run (before ++ later) = later.foldl (fun b op => op.next b) (run before) :=
  List.foldl_append

theorem foldl_keeps (ops : List BuilderOp) (h : b.WellFormed) :
    (ops.foldl (fun b op => op.next b) b).WellFormed ∧
      b.Extends (ops.foldl (fun b op => op.next b) b) := by
  induction ops generalizing b with
  | nil => exact ⟨h, Builder.extends_refl b⟩
  | cons op rest ih =>
    obtain ⟨wellFormed, ext⟩ := next_keeps h op
    obtain ⟨last, later⟩ := ih wellFormed
    exact ⟨last, ext.trans later⟩

theorem run_wellFormed (ops : List BuilderOp) : (run ops).WellFormed :=
  (foldl_keeps ops Builder.wellFormed_empty).1

theorem run_extends (before later : List BuilderOp) :
    (run before).Extends (run (before ++ later)) := by
  rw [run_append]
  exact (foldl_keeps later (run_wellFormed before)).2

/-- No more numbers are taken than there are operations that may take one. -/
theorem foldl_numbered (ops : List BuilderOp) (h : b.WellFormed) :
    ∃ count ≤ ops.countP standsAlone, b.Numbered (ops.foldl (fun b op => op.next b) b) count := by
  induction ops generalizing b with
  | nil => exact ⟨0, Nat.le_refl _, Builder.numbered_refl b⟩
  | cons op rest ih =>
    obtain ⟨one, bound, first⟩ := next_numbered h op
    obtain ⟨more, bound', others⟩ := ih (next_keeps h op).1
    refine ⟨one + more, ?_, first.trans others⟩
    have here : (if op.standsAlone = true then 1 else 0) = op.standsAlone.toNat := by
      cases op.standsAlone <;> rfl
    rw [List.countP_cons, here]
    omega

/-- As long as numbers do not run out, each that was taken is below the next one. -/
theorem run_numbers (ops : List BuilderOp) (counted : ops.countP standsAlone < UInt64.size)
    {number : UInt64} (inside : .unique number ∈ (run ops).keys) : number < (run ops).nonce := by
  obtain ⟨count, bound, numbered⟩ := foldl_numbered ops Builder.wellFormed_empty
  have nonce : (run ops).nonce = 0 + UInt64.ofNat count := numbered.nonce
  rcases numbered.keys number inside with none | ⟨k, below, taken⟩
  · cases none
  · change number = 0 + UInt64.ofNat k at taken
    rw [nonce, taken, UInt64.zero_add, UInt64.zero_add, UInt64.lt_iff_toNat_lt,
      UInt64.toNat_ofNat_of_lt' (by omega), UInt64.toNat_ofNat_of_lt' (by omega)]
    exact below

/-- Every state of a run is well formed and what it has stays. Numbers of inputs that stand alone are below
the next one until there have been as many as there are words. An input handle is the place of the key that
was admitted, a result handle that of the command that was appended, for the rest of the run. -/
theorem run_stable (before later : List BuilderOp) :
    (run before).WellFormed ∧
      (before.countP standsAlone < UInt64.size →
        ∀ number, .unique number ∈ (run before).keys → number < (run before).nonce) ∧
      (run before).Extends (run (before ++ later)) ∧
      (∀ op i, op.answer (run before) = .ok (.handle (.input i)) →
        ∃ key, op.key? (run before) = some key ∧
          (run (before ++ op :: later)).keys[i.toNat]? = some key) ∧
      ∀ op j, op.answer (run before) = .ok (.handle (.result j)) →
        ∃ c, op.command? = some c ∧ j.toNat = (run before).commands.length ∧
          (run (before ++ op :: later)).commands[j.toNat]? = some c := by
  have wellFormed := run_wellFormed before
  have after_op : ∀ op : BuilderOp, (op.next (run before)).Extends (run (before ++ op :: later)) := by
    intro op
    rw [run_append]
    exact (foldl_keeps later (next_keeps wellFormed op).1).2
  refine ⟨wellFormed, fun counted _ inside => run_numbers before counted inside,
    run_extends before later, ?_, ?_⟩
  · intro op i answered
    obtain ⟨key, names, place⟩ := input_place wellFormed answered
    exact ⟨key, names, Builder.getElem?_of_prefix (after_op op).keys place⟩
  · intro op j answered
    obtain ⟨c, names, count, place⟩ := result_place wellFormed answered
    exact ⟨c, names, count, Builder.getElem?_of_prefix (after_op op).commands place⟩

/-- The clock, admitted by id and then by reference, keeps its handle when the builder goes on. The input
before it stands alone and has the number zero. -/
theorem run_stable_clock :
    let before : List BuilderOp := [.uniquePure ⟨[7], .boolean⟩, .objectId .clock]
    let op : BuilderOp := .object (.shared ⟨.clock, 1, false⟩)
    op.answer (run before) = .ok (.handle (.input 1)) ∧
      (run (before ++ op :: [.uniquePure ⟨[7], .boolean⟩, .finalize])).keys[1]? =
        some (.object .clock) ∧
      .unique 0 ∈ (run before).keys ∧ 0 < (run before).nonce := by
  have answered : answer (.object (.shared ⟨.clock, 1, false⟩))
      (run [.uniquePure ⟨[7], .boolean⟩, .objectId .clock]) = .ok (.handle (.input 1)) := rfl
  have alone : .unique 0 ∈ (run [.uniquePure ⟨[7], .boolean⟩, .objectId .clock]).keys := .head _
  obtain ⟨-, numbers, -, inputs, -⟩ := run_stable [.uniquePure ⟨[7], .boolean⟩, .objectId .clock]
    [.uniquePure ⟨[7], .boolean⟩, .finalize]
  obtain ⟨key, names, place⟩ := inputs _ _ answered
  obtain rfl := Option.some.inj names
  exact ⟨answered, place, alone, numbers (by decide) 0 alone⟩

end BuilderOp

/-! ### Reachable builders -/

/-- Whether operations lead to the builder. -/
def Builder.Reachable (b : Builder) : Prop :=
  ∃ ops, b = BuilderOp.run ops

theorem Builder.reachable_empty : Builder.empty.Reachable :=
  ⟨[], rfl⟩

theorem Builder.Reachable.next {b : Builder} (h : b.Reachable) (op : BuilderOp) :
    (op.next b).Reachable := by
  obtain ⟨ops, rfl⟩ := h
  exact ⟨ops ++ [op], (BuilderOp.run_append ops [op]).symm⟩

theorem Builder.Reachable.wellFormed {b : Builder} (h : b.Reachable) : b.WellFormed := by
  obtain ⟨ops, rfl⟩ := h
  exact BuilderOp.run_wellFormed ops

/-- A step that has no other way to a builder than its operations. -/
def BuilderStep.Sealed {α : Type} (x : BuilderStep α) : Prop :=
  ∀ b a t, b.Reachable → x b = .ok a t → t.Reachable

end MoveTx
