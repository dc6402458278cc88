import MoveTx.Proofs.Builder.Gain

/-!
# Operations that fail

A builder looks the same after an operation that fails, with one exception. An object that is new is put
in use before there is known to be room for its input, and stays in use when there is none.
-/

namespace MoveTx
open Step

namespace Builder

variable {b t : Builder} {e : BuilderError} {key : InputKey} {slot : InputSlot}

/-- Nothing that can be seen of a builder is different. -/
structure LooksLike (b t : Builder) : Prop where
  inputs : t.inputs = b.inputs
  commands : t.commands = b.commands
  objectsInUse : t.objectsInUse = b.objectsInUse
  unresolvedIds : t.unresolvedIds = b.unresolvedIds
  finalized : t.finalized = b.finalized

theorem looksLike_refl (b : Builder) : b.LooksLike b :=
  ⟨rfl, rfl, rfl, rfl, rfl⟩

/-- The builder once an object is in use. -/
def withUse (b : Builder) (id : Address) : Builder :=
  { b with objectsInUse := Address.insert id b.objectsInUse }

theorem keys_withUse (b : Builder) (id : Address) : (b.withUse id).keys = b.keys :=
  rfl

/-! ### Admissions without room -/

theorem insert_full (fresh : key ∉ b.keys) (full : maxInputs ≤ b.inputs.length) :
    insert key slot b = .error (.limitExceeded .inputs) b := by
  rcases insert_cases key slot b with ⟨i, found, -⟩ | ⟨-, -, failed⟩ | ⟨-, room, -⟩
  · exact absurd (List.mem_of_getElem? (keys_of_indexOf? found)) fresh
  · exact failed
  · exact absurd full (Nat.not_le_of_lt room)

theorem insert_error (failed : insert key slot b = .error e t) :
    t = b ∧ e = .limitExceeded .inputs ∧ key ∉ b.keys ∧ maxInputs ≤ b.inputs.length := by
  rcases insert_cases key slot b with ⟨i, -, run⟩ | ⟨fresh, full, run⟩ | ⟨-, -, run⟩
  · cases run.symm.trans failed
  · cases run.symm.trans failed
    exact ⟨rfl, rfl, indexOf?_eq_none.mp fresh, full⟩
  · cases run.symm.trans failed

/-- A builder that is finalized fails as it is. -/
theorem open_error {α : Type} {x : BuilderStep α} (failed : (ensureOpen >>= fun _ => x) b = .error e t) :
    t = b ∨ b.finalized = false ∧ x b = .error e t := by
  cases closed : b.finalized with
  | true =>
    cases (closed_run closed).symm.trans failed
    exact Or.inl rfl
  | false => exact Or.inr ⟨rfl, (open_run closed).symm.trans failed⟩

theorem Filling.error (filling : Filling b (.error e t)) : t = b := by
  cases filling
  rfl

end Builder

namespace BuilderOp

variable {op : BuilderOp} {b t : Builder} {e : BuilderError} {id : Address}

/-- The operation admits an object that is new to an open builder without room. -/
structure Overflows (op : BuilderOp) (b : Builder) (id : Address) : Prop where
  isOpen : b.finalized = false
  admits : op.key? b = some (.object id)
  fresh : .object id ∉ b.keys
  full : maxInputs ≤ b.inputs.length

/-- How an operation that fails may leave a builder. The number of the next input that is never shared
cannot be seen. -/
inductive FailsTo (op : BuilderOp) (b : Builder) : Builder → Prop
  | same : FailsTo op b b
  | numbered : FailsTo op b { b with nonce := b.nonce + 1 }
  | inUse (id : Address) (overflows : op.Overflows b id) : FailsTo op b (b.withUse id)

theorem pureBytes_fails {value : PureBytes} (failed : Builder.pureBytes value b = .error e t) :
    FailsTo op b t := by
  rcases Builder.open_error failed with rfl | ⟨-, failed⟩
  · exact .same
  · obtain ⟨rfl, -⟩ := Builder.insert_error failed
    exact .same

theorem uniquePure_fails {value : PureBytes} (failed : Builder.uniquePure value b = .error e t) :
    FailsTo op b t := by
  rcases Builder.open_error failed with rfl | ⟨-, failed⟩
  · exact .same
  · obtain ⟨rfl, -⟩ := Builder.insert_error (b := { b with nonce := b.nonce + 1 }) failed
    exact .numbered

/-- A new object is in use before it is admitted. -/
theorem insert_fails (isOpen : b.finalized = false) (admits : op.key? b = some (.object id))
    {slot : InputSlot} (failed : Builder.insert (.object id) slot (b.withUse id) = .error e t) :
    FailsTo op b t := by
  obtain ⟨rfl, -, fresh, full⟩ := Builder.insert_error failed
  exact .inUse id ⟨isOpen, admits, fresh, full⟩

theorem objectId_fails (failed : Builder.objectId id b = .error e t) : FailsTo (.objectId id) b t := by
  rcases Builder.open_error failed with rfl | ⟨isOpen, failed⟩
  · exact .same
  · exact insert_fails isOpen rfl failed

theorem object_fails {arg : ObjectArg} (failed : Builder.object arg b = .error e t) :
    FailsTo (.object arg) b t := by
  rcases Builder.open_error failed with rfl | ⟨isOpen, failed⟩
  · exact .same
  rw [get_bind] at failed
  cases found : b.indexOf? (.object arg.id) with
  | none =>
    simp only [found] at failed
    exact insert_fails isOpen rfl failed
  | some i =>
    simp only [found] at failed
    cases here : b.inputs[i]? with
    | none =>
      simp only [here] at failed
      cases failed
      exact .same
    | some entry =>
      simp only [here] at failed
      cases merge : Builder.mergeObject entry.2 arg with
      | error e' =>
        simp only [merge] at failed
        cases failed
        exact .same
      | ok merged =>
        simp only [merge] at failed
        cases failed

theorem makeMoveVec_fails {elementType : Option TypeTag} {elements : List Argument}
    (failed : Builder.makeMoveVec elementType elements b = .error e t) : FailsTo op b t := by
  unfold Builder.makeMoveVec at failed
  split at failed
  · cases failed
    exact .same
  · rcases Builder.command_cases (.makeMoveVec elementType elements) b with ⟨_, run⟩ | ⟨-, run⟩
    · cases run.symm.trans failed
      exact .same
    · cases run.symm.trans failed

theorem command_fails {c : Command} (failed : Builder.command c b = .error e t) : FailsTo op b t := by
  rcases Builder.command_cases c b with ⟨_, run⟩ | ⟨-, run⟩
  · cases run.symm.trans failed
    exact .same
  · cases run.symm.trans failed

theorem step_fails (h : b.WellFormed) (failed : op.step b = .error e t) : FailsTo op b t := by
  cases op with
  | pure value => exact pureBytes_fails (map_error_iff.mp failed)
  | pureBytes value => exact pureBytes_fails (map_error_iff.mp failed)
  | uniquePure value => exact uniquePure_fails (map_error_iff.mp failed)
  | object arg => exact object_fails (map_error_iff.mp failed)
  | objectId id => exact objectId_fails (map_error_iff.mp failed)
  | markReceiving arg =>
    have filling := Builder.markReceiving_filling h arg
    rw [map_error_iff.mp failed] at filling
    obtain rfl := filling.error
    exact .same
  | resolve arg =>
    have filling := Builder.resolve_filling arg b
    rw [map_error_iff.mp failed] at filling
    obtain rfl := filling.error
    exact .same
  | command c => exact command_fails (map_error_iff.mp failed)
  | makeMoveVec elementType elements => exact makeMoveVec_fails (map_error_iff.mp failed)
  | moveCall package module function typeArguments arguments =>
    exact command_fails (map_error_iff.mp failed)
  | inspect =>
    rw [step, get_bind] at failed
    cases taken : b.inspect with
    | ok kind =>
      rw [taken] at failed
      cases failed
    | error e' =>
      rw [taken] at failed
      cases failed
      exact .same
  | finalize =>
    have failed := map_error_iff.mp failed
    rcases Builder.finalize_cases b with ⟨_, run⟩ | ⟨_, -, -, -, run⟩
    · cases run.symm.trans failed
      exact .same
    · cases run.symm.trans failed

/-- An object without room is refused, and is in use all the same. -/
theorem overflows_step (overflows : op.Overflows b id) :
    op.step b = .error (.limitExceeded .inputs) (b.withUse id) := by
  obtain ⟨isOpen, admits, fresh, full⟩ := overflows
  have refused : ∀ slot,
      Builder.insert (.object id) slot (b.withUse id) = .error (.limitExceeded .inputs) (b.withUse id) :=
    fun slot => Builder.insert_full fresh full
  cases op with
  | objectId other =>
    cases admits
    exact map_of_error ((Builder.open_run isOpen).trans (refused _))
  | object arg =>
    cases admits
    apply map_of_error
    unfold Builder.object
    rw [Builder.open_run isOpen, get_bind, Builder.indexOf?_eq_none.mpr fresh]
    exact refused _
  | _ => cases admits

/-- An operation that fails leaves a builder looking as it did, whatever the reason, unless it is to admit
a new object without room. Then the object is in use from that moment, and all else is as before. -/
theorem step_failure (reachable : b.Reachable) (op : BuilderOp) :
    (∀ e t, op.step b = .error e t → (∀ id, ¬ op.Overflows b id) → b.LooksLike t) ∧
      ∀ id, op.Overflows b id → op.step b = .error (.limitExceeded .inputs)
        { b with objectsInUse := Address.insert id b.objectsInUse } := by
  refine ⟨?_, fun id overflows => overflows_step overflows⟩
  intro e t failed room
  cases step_fails reachable.wellFormed failed with
  | same => exact Builder.looksLike_refl b
  | numbered => exact ⟨rfl, rfl, rfl, rfl, rfl⟩
  | inUse id overflows => exact absurd overflows (room id)

/-- An object is refused without a trace when it was admitted with another reference. -/
theorem sampleRef_refused :
    let b := run [.objectId .clock, .object (.owned sampleRef)]
    let e := BuilderError.argumentTypeMismatch (.conflictingReferences sampleRef.id)
    ∃ t, step (.object (.owned { sampleRef with version := 4 })) b = .error e t ∧ b.LooksLike t := by
  intro b e
  have reachable : b.Reachable := ⟨_, rfl⟩
  have failed : step (.object (.owned { sampleRef with version := 4 })) b = .error e b := rfl
  refine ⟨b, failed, (step_failure reachable _).1 e b failed ?_⟩
  rintro id ⟨-, -, -, full⟩
  exact absurd full (by decide)

/-! ### A builder without room -/

/-- An empty sequence of bytes as an input of its own. -/
def lonely : BuilderOp :=
  .uniquePure ⟨[], .bytes⟩

/-- The builder that so many lonely inputs make. -/
def crowd (count : Nat) : Builder :=
  { Builder.empty with
    inputs := (List.range count).map fun k => (.unique (UInt64.ofNat k), .resolved (.pure []))
    nonce := UInt64.ofNat count }

theorem length_crowd (count : Nat) : (crowd count).inputs.length = count := by
  simp [crowd]

/-- There are more numbers than there may be inputs. -/
theorem crowd_fresh {count : Nat} (room : count < maxInputs) :
    .unique (crowd count).nonce ∉ (crowd count).keys := by
  have words : maxInputs ≤ UInt64.size := by decide
  simp only [crowd, Builder.keys, List.map_map, List.mem_map, List.mem_range, not_exists, not_and]
  intro k below same
  have number := congrArg UInt64.toNat (InputKey.unique.inj same)
  rw [UInt64.toNat_ofNat_of_lt' (by omega), UInt64.toNat_ofNat_of_lt' (by omega)] at number
  omega

theorem next_crowd {count : Nat} (room : count < maxInputs) : lonely.next (crowd count) = crowd (count + 1) := by
  have raised : (crowd count).nonce + 1 = (crowd (count + 1)).nonce := (UInt64.ofNat_add count 1).symm
  unfold next lonely
  rw [step, after_map, Builder.uniquePure_run rfl, raised]
  rcases Builder.insert_cases (.unique (crowd count).nonce) (.resolved (.pure []))
    { crowd count with nonce := (crowd (count + 1)).nonce } with ⟨i, found, -⟩ | ⟨-, full, -⟩ | ⟨-, -, run⟩
  · exact absurd (List.mem_of_getElem? (Builder.keys_of_indexOf? found)) (crowd_fresh room)
  · exact absurd (length_crowd count ▸ full) (Nat.not_le_of_lt room)
  · rw [run]
    simp [after, crowd, List.range_succ]

theorem run_crowd {count : Nat} (room : count ≤ maxInputs) :
    run (List.replicate count lonely) = crowd count := by
  induction count with
  | zero => rfl
  | succ count ih =>
    rw [List.replicate_succ', run_append, ih (Nat.le_of_succ_le room)]
    exact next_crowd room

/-- The clock finds no room among as many inputs as there may be, and is in use without being one. -/
theorem crowd_inUse :
    let b := run (List.replicate maxInputs lonely)
    ∃ t, step (.objectId .clock) b = .error (.limitExceeded .inputs) t ∧
      b.objectsInUse = [] ∧ t.objectsInUse = [.clock] ∧ .object .clock ∉ t.keys ∧ ¬ b.LooksLike t := by
  intro b
  have made : b = crowd maxInputs := run_crowd (Nat.le_refl _)
  have fresh : .object .clock ∉ (crowd maxInputs).keys := by
    simp [crowd, Builder.keys]
  have overflows : (BuilderOp.objectId .clock).Overflows (crowd maxInputs) .clock :=
    ⟨rfl, rfl, fresh, (length_crowd maxInputs).ge⟩
  rw [made]
  refine ⟨(crowd maxInputs).withUse .clock, overflows_step overflows, rfl, rfl, ?_, ?_⟩
  · rw [Builder.keys_withUse]
    exact fresh
  · intro same
    exact List.cons_ne_nil _ _ same.objectsInUse

end BuilderOp

end MoveTx
