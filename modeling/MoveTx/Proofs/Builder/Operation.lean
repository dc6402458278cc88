import MoveTx.Proofs.Builder.WellFormed
import MoveTx.Proofs.Step

/-!
# Operations of a builder

What each operation of a builder does in each case, whether it succeeds or fails, and that this is made
of elementary changes. A handle that an admission gives back is the place of the key it admitted.
-/

namespace MoveTx

namespace Builder
open Step

/-! ### Open and closed builders -/

theorem closed_run {α : Type} {x : BuilderStep α} {b : Builder} (closed : b.finalized = true) :
    (ensureOpen >>= fun _ => x) b = .error .alreadyFinalized b := by
  apply bind_of_error
  change (if b.finalized then throw .alreadyFinalized else return () : BuilderStep Unit) b = _
  rw [closed]
  rfl

theorem open_run {α : Type} {x : BuilderStep α} {b : Builder} (isOpen : b.finalized = false) :
    (ensureOpen >>= fun _ => x) b = x b := by
  apply bind_of_ok
  change (if b.finalized then throw .alreadyFinalized else return () : BuilderStep Unit) b = _
  rw [isOpen]
  rfl

/-- What succeeds was done to an open builder. -/
theorem open_ok {α : Type} {x : BuilderStep α} {b c : Builder} {a : α}
    (run : (ensureOpen >>= fun _ => x) b = .ok a c) : x b = .ok a c := by
  cases closed : b.finalized with
  | true => cases (closed_run closed).symm.trans run
  | false => exact (open_run closed).symm.trans run

/-! ### Inputs -/

theorem insert_cases (key : InputKey) (slot : InputSlot) (b : Builder) :
    (∃ i, b.indexOf? key = some i ∧ insert key slot b = .ok (.input (UInt16.ofNat i)) b) ∨
      (b.indexOf? key = none ∧ maxInputs ≤ b.inputs.length ∧
        insert key slot b = .error (.limitExceeded .inputs) b) ∨
      (b.indexOf? key = none ∧ b.inputs.length < maxInputs ∧
        insert key slot b = .ok (.input (UInt16.ofNat b.inputs.length))
          { b with inputs := b.inputs ++ [(key, slot)] }) := by
  unfold insert
  rw [get_bind]
  cases found : b.indexOf? key with
  | some i => exact Or.inl ⟨i, rfl, rfl⟩
  | none =>
    by_cases full : maxInputs ≤ b.inputs.length
    · refine Or.inr (Or.inl ⟨rfl, full, ?_⟩)
      simp only [full, if_true]
      rfl
    · refine Or.inr (Or.inr ⟨rfl, Nat.lt_of_not_le full, ?_⟩)
      simp only [full, if_false]
      rfl

/-- `insert` changes nothing but the inputs. -/
theorem after_insert (key : InputKey) (slot : InputSlot) (b : Builder) :
    ∃ inputs, after (insert key slot b) = { b with inputs := inputs } := by
  rcases insert_cases key slot b with ⟨i, -, run⟩ | ⟨-, -, run⟩ | ⟨-, -, run⟩ <;>
    exact ⟨_, congrArg after run⟩

/-- How the admission of a key may end. It is refused, or its key is there already, or its key is added
behind those that are. -/
inductive Admission (b : Builder) (key : InputKey) :
    EStateM.Result BuilderError Builder Argument → Prop
  | refused (e : BuilderError) (t : Builder) (evolves : Evolves b t) (inputs : t.inputs = b.inputs)
      (commands : t.commands = b.commands) : Admission b key (.error e t)
  | found (i : Nat) (t : Builder) (evolves : Evolves b t) (place : b.keys[i]? = some key)
      (keys : t.keys = b.keys) (commands : t.commands = b.commands) :
      Admission b key (.ok (.input (UInt16.ofNat i)) t)
  | added (t : Builder) (evolves : Evolves b t) (fresh : key ∉ b.keys)
      (keys : t.keys = b.keys ++ [key]) (commands : t.commands = b.commands) :
      Admission b key (.ok (.input (UInt16.ofNat b.keys.length)) t)

theorem Admission.evolves {b : Builder} {key : InputKey}
    {r : EStateM.Result BuilderError Builder Argument} (admission : Admission b key r) :
    Evolves b (after r) := by
  cases admission <;> assumption

/-- The handle of an admission is the place of its key. -/
theorem Admission.handle {b t : Builder} {key : InputKey} {a : Argument}
    (admission : Admission b key (.ok a t)) :
    ∃ i, a = .input (UInt16.ofNat i) ∧ t.keys[i]? = some key := by
  cases admission with
  | found i _ _ place keys =>
    rw [← keys] at place
    exact ⟨i, rfl, place⟩
  | added _ _ _ keys =>
    refine ⟨b.keys.length, rfl, ?_⟩
    rw [keys, List.getElem?_append_right (Nat.le_refl _), Nat.sub_self]
    rfl

/-- `insert` admits its key once the builder has been made ready for it. -/
theorem insert_admission {key : InputKey} {slot : InputSlot} {b ready : Builder}
    (evolves : Evolves b ready) (inputs : ready.inputs = b.inputs)
    (commands : ready.commands = b.commands) (holds : key.Holds slot)
    (used : ∀ id, key = .object id → id ∈ ready.objectsInUse) :
    Admission b key (insert key slot ready) := by
  have keys : ready.keys = b.keys := congrArg (List.map _) inputs
  rcases insert_cases key slot ready with ⟨i, found, run⟩ | ⟨_, _, run⟩ | ⟨fresh, room, run⟩
  · rw [run]
    exact .found i ready evolves (keys ▸ keys_of_indexOf? found) keys commands
  · rw [run]
    exact .refused _ _ evolves inputs commands
  · have absent : key ∉ ready.keys := indexOf?_eq_none.mp fresh
    have count : ready.inputs.length = b.keys.length := by
      rw [inputs]
      exact (List.length_map _).symm
    rw [run, count]
    apply Admission.added
    · exact evolves.tail (.add key slot absent room holds used)
    · exact keys ▸ absent
    · rw [← keys]
      exact List.map_append
    · exact commands

/-- A finalized builder refuses every admission. -/
theorem open_admission {key : InputKey} {x : BuilderStep Argument} {b : Builder}
    (admission : Admission b key (x b)) : Admission b key ((ensureOpen >>= fun _ => x) b) := by
  cases closed : b.finalized with
  | true =>
    rw [closed_run closed]
    exact .refused _ _ .refl rfl rfl
  | false =>
    rw [open_run closed]
    exact admission

theorem pureBytes_admission (value : PureBytes) (b : Builder) :
    Admission b (.pure value.bytes value.origin) (pureBytes value b) := by
  apply open_admission
  apply insert_admission .refl rfl rfl (.pure _ _)
  intro id other
  cases other

theorem uniquePure_admission (value : PureBytes) (b : Builder) :
    Admission b (.unique b.nonce) (uniquePure value b) := by
  apply open_admission
  apply insert_admission (.single .number) rfl rfl (.unique _ _)
  intro id other
  cases other

theorem objectId_admission (id : Address) (b : Builder) :
    Admission b (.object id) (objectId id b) := by
  apply open_admission
  apply insert_admission (.single (.use id)) rfl rfl (.unresolved _ _)
  intro other same
  cases same
  exact Address.mem_insert.mpr (Or.inl rfl)

theorem received_id (arg : ObjectArg) : (received arg).id = arg.id := by
  cases arg <;> rfl

/-- Two references to an object are merged into a slot for that object. -/
theorem mergeObject_holds {slot merged : InputSlot} {arg : ObjectArg}
    (holds : (InputKey.object arg.id).Holds slot) (merge : mergeObject slot arg = .ok merged) :
    (InputKey.object arg.id).Holds merged := by
  unfold mergeObject at merge
  generalize same : arg.id = id at holds ⊢
  cases holds with
  | unresolved _ receiving =>
    subst same
    cases receiving with
    | false =>
      obtain rfl := Except.ok.inj merge
      exact .object arg
    | true =>
      obtain rfl := Except.ok.inj merge
      rw [← received_id]
      exact .object (received arg)
  | object current =>
    simp only at merge
    split at merge
    · rename_i a b
      split at merge
      · obtain rfl := Except.ok.inj merge
        exact InputKey.Holds.object (.shared { a with isMutable := a.isMutable || b.isMutable })
      · cases merge
    · split at merge
      · obtain rfl := Except.ok.inj merge
        exact .object _
      · cases merge
    · split at merge
      · obtain rfl := Except.ok.inj merge
        exact .object _
      · cases merge

/-- An object that is there already keeps its place, and its slot is merged with the new reference. -/
theorem object_admission {b : Builder} (h : b.WellFormed) (arg : ObjectArg) :
    Admission b (.object arg.id) (object arg b) := by
  apply open_admission
  simp only [get_bind]
  cases found : b.indexOf? (.object arg.id) with
  | none =>
    apply insert_admission (.single (.use arg.id)) rfl rfl (.object arg)
    intro other same
    cases same
    exact Address.mem_insert.mpr (Or.inl rfl)
  | some i =>
    have place : b.keys[i]? = some (.object arg.id) := keys_of_indexOf? found
    obtain ⟨slot, here⟩ := keys_get.mp place
    have holds := h.slots_hold _ (List.mem_of_getElem? here)
    simp only [here]
    cases merge : mergeObject slot arg with
    | error e => exact .refused e b .refl rfl rfl
    | ok merged =>
      have fill : Change b (b.setSlot i merged) :=
        .fill i arg.id merged place (mergeObject_holds holds merge)
      exact .found i _ (.single fill) place (keys_setSlot b i merged) rfl

/-! ### Receiving and resolving -/

/-- How an operation that may fill the slot of an object anew can end. -/
inductive Filling (b : Builder) : EStateM.Result BuilderError Builder Unit → Prop
  | refused (e : BuilderError) : Filling b (.error e b)
  | same : Filling b (.ok () b)
  | fill (i : Nat) (id : Address) (slot : InputSlot) (place : b.keys[i]? = some (.object id))
      (holds : (InputKey.object id).Holds slot) : Filling b (.ok () (b.setSlot i slot))

theorem open_filling {x : BuilderStep Unit} {b : Builder} (filling : Filling b (x b)) :
    Filling b ((ensureOpen >>= fun _ => x) b) := by
  cases closed : b.finalized with
  | true =>
    rw [closed_run closed]
    exact .refused _
  | false =>
    rw [open_run closed]
    exact filling

theorem resolve_filling (arg : ObjectArg) (b : Builder) : Filling b (resolve arg b) := by
  apply open_filling
  simp only [get_bind]
  cases found : b.indexOf? (.object arg.id) with
  | none => exact .refused _
  | some i =>
    have fill : ∀ new : ObjectArg, new.id = arg.id →
        Filling b (.ok () (b.setSlot i (.resolved (.object new)))) := by
      intro new same
      apply Filling.fill i arg.id _ (keys_of_indexOf? found)
      rw [← same]
      exact .object new
    simp only
    cases b.slots[i]? with
    | none => exact fill arg rfl
    | some slot =>
      cases slot with
      | resolved held => exact fill arg rfl
      | unresolved id receiving =>
        cases receiving with
        | false => exact fill arg rfl
        | true => exact fill (received arg) (received_id arg)

theorem markReceiving_filling {b : Builder} (h : b.WellFormed) (arg : Argument) :
    Filling b (markReceiving arg b) := by
  apply open_filling
  simp only [get_bind]
  cases arg with
  | gasCoin | result | nestedResult => exact .refused _
  | input index =>
    simp only
    cases here : b.slots[index.toNat]? with
    | none => exact .refused _
    | some slot =>
      obtain ⟨key, entry⟩ := slots_get.mp here
      have place := keys_get.mpr ⟨slot, entry⟩
      -- The slot alone tells whether its key is that of an object.
      have holds := h.slots_hold _ (List.mem_of_getElem? entry)
      cases holds with
      | unresolved id receiving => exact .fill _ id _ place (.unresolved id true)
      | object held =>
        cases held with
        | owned r => exact .fill _ r.id _ place (.object (.receiving r))
        | shared r => exact .refused _
        | receiving r => exact .same
      | pure | unique => exact .refused _

/-! ### Commands and the end -/

theorem command_cases (c : Command) (b : Builder) :
    (∃ e, command c b = .error e b) ∨
      (b.commands.length < maxCommands ∧
        command c b = .ok (.result (UInt16.ofNat b.commands.length))
          { b with commands := b.commands ++ [c] }) := by
  by_cases closed : b.finalized = true
  · exact Or.inl ⟨_, closed_run closed⟩
  · have run : command c b = (if maxCommands ≤ b.commands.length then throw (.limitExceeded .commands)
        else do
          set { b with commands := b.commands ++ [c] }
          return .result (UInt16.ofNat b.commands.length) : BuilderStep Argument) b :=
      open_run (eq_false_of_ne_true closed)
    rw [run]
    by_cases full : maxCommands ≤ b.commands.length
    · rw [if_pos full]
      exact Or.inl ⟨_, rfl⟩
    · rw [if_neg full]
      exact Or.inr ⟨Nat.lt_of_not_le full, rfl⟩

/-- An open builder is finalized when its snapshot can be taken and is valid. -/
theorem finalize_run {b : Builder} (isOpen : b.finalized = false) :
    finalize b = match b.snapshot with
      | .error e => .error e b
      | .ok t =>
        match t.validate with
        | .error e => .error e b
        | .ok () => .ok t { b with finalized := true } := by
  unfold finalize
  rw [open_run isOpen, get_bind]
  cases b.snapshot with
  | error e => rfl
  | ok t =>
    simp only
    cases t.validate with
    | error e => rfl
    | ok _ => rfl

theorem finalize_cases (b : Builder) :
    (∃ e, finalize b = .error e b) ∨
      ∃ t, b.finalized = false ∧ b.snapshot = .ok t ∧ t.validate = .ok () ∧
        finalize b = .ok t { b with finalized := true } := by
  cases closed : b.finalized with
  | true => exact Or.inl ⟨_, closed_run closed⟩
  | false =>
    rw [finalize_run closed]
    cases taken : b.snapshot with
    | error e => exact Or.inl ⟨e, rfl⟩
    | ok t =>
      cases valid : t.validate with
      | error e => exact Or.inl ⟨e, by simp only [valid]⟩
      | ok _ => exact Or.inr ⟨t, rfl, rfl, valid, by simp only [valid]⟩

/-! ### Numbers of inputs that are never shared -/

/-- From `b` on to `c`, so many numbers were taken, each the one after that before it. Numbers are words,
so that after the last of them comes zero. -/
structure Numbered (b c : Builder) (count : Nat) : Prop where
  nonce : c.nonce = b.nonce + UInt64.ofNat count
  keys : ∀ number, .unique number ∈ c.keys →
    .unique number ∈ b.keys ∨ ∃ k < count, number = b.nonce + UInt64.ofNat k

theorem numbered_refl (b : Builder) : b.Numbered b 0 :=
  ⟨(UInt64.add_zero _).symm, fun _ inside => Or.inl inside⟩

theorem Numbered.trans {a b c : Builder} {m n : Nat} (first : a.Numbered b m) (second : b.Numbered c n) :
    a.Numbered c (m + n) := by
  have moved : ∀ k, b.nonce + UInt64.ofNat k = a.nonce + UInt64.ofNat (m + k) := by
    intro k
    rw [first.nonce, UInt64.ofNat_add, UInt64.add_assoc]
  refine ⟨second.nonce.trans (moved n), fun number inside => ?_⟩
  rcases second.keys number inside with old | ⟨k, below, rfl⟩
  · rcases first.keys number old with older | ⟨k, below, rfl⟩
    · exact Or.inl older
    · exact Or.inr ⟨k, Nat.lt_add_right n below, rfl⟩
  · exact Or.inr ⟨m + k, Nat.add_lt_add_left below m, moved k⟩

theorem open_nonce {α : Type} {x : BuilderStep α} {b : Builder} (kept : (after (x b)).nonce = b.nonce) :
    (after ((ensureOpen >>= fun _ => x) b)).nonce = b.nonce := by
  cases closed : b.finalized with
  | true =>
    rw [closed_run closed]
    rfl
  | false =>
    rw [open_run closed]
    exact kept

theorem insert_nonce (key : InputKey) (slot : InputSlot) (b : Builder) :
    (after (insert key slot b)).nonce = b.nonce := by
  obtain ⟨inputs, same⟩ := after_insert key slot b
  rw [same]

theorem object_nonce (arg : ObjectArg) (b : Builder) : (after (object arg b)).nonce = b.nonce := by
  apply open_nonce
  simp only [get_bind]
  cases b.indexOf? (.object arg.id) with
  | none => exact insert_nonce _ _ { b with objectsInUse := Address.insert arg.id b.objectsInUse }
  | some i =>
    simp only
    cases b.inputs[i]? with
    | none => rfl
    | some entry =>
      simp only
      cases mergeObject entry.2 arg <;> rfl

theorem Filling.nonce {b : Builder} {r : EStateM.Result BuilderError Builder Unit} (filling : Filling b r) :
    (after r).nonce = b.nonce := by
  cases filling <;> rfl

theorem command_nonce (c : Command) (b : Builder) : (after (command c b)).nonce = b.nonce := by
  rcases command_cases c b with ⟨e, ended⟩ | ⟨-, ended⟩
  · rw [ended]
    rfl
  · rw [ended]
    rfl

/-- The number is taken before there is known to be room for the input. -/
theorem uniquePure_run {b : Builder} (isOpen : b.finalized = false) (value : PureBytes) :
    uniquePure value b =
      insert (.unique b.nonce) (.resolved (.pure value.bytes)) { b with nonce := b.nonce + 1 } :=
  open_run isOpen

end Builder

end MoveTx
