import MoveTx.Proofs.Draft.Records
import MoveTx.Proofs.Session.Faithful

/-!
# Mutability of shared objects

Whether a shared object is taken mutably is the join of the accesses to it, but only of those that count:
an access by id no longer does once the object is accessed by reference.
-/

namespace MoveTx
open Step

namespace Draft

variable {us : List Access} {d : Draft}

theorem Records.wantsMutable_iff (h : Records us d) {id : Address} {receiving : Bool}
    (held : d.builder.slotOf? id = some (.unresolved id receiving)) :
    d.wantsMutable id = true ↔ ∃ u ∈ us, u.id = id ∧ u.isMutable = true := by
  have slot := h.slots id
  rw [held] at slot
  cases slot with
  | unresolved _ accessed byId =>
    -- Notes of accesses by id say what the access asked for.
    have use : ∀ u ∈ us, u.id = id → u.use = ⟨id, u.isMutable⟩ := by
      intro u inside here
      simp [Access.use, byId u inside here, here]
    obtain ⟨u, inside, here⟩ := accessed
    have noted : (d.usesOf id).isEmpty = false := by
      apply List.isEmpty_eq_false_iff_exists_mem.mpr
      refine ⟨u.use, List.mem_filter.mpr ⟨(h.notes _).mpr ⟨u, inside, rfl⟩, ?_⟩⟩
      simp [use u inside here]
    unfold wantsMutable
    rw [noted, Bool.false_or, List.any_eq_true]
    constructor
    · rintro ⟨note, present, wanted⟩
      obtain ⟨present, about⟩ := List.mem_filter.mp present
      obtain ⟨v, inside, rfl⟩ := (h.notes note).mp present
      have here : v.id = id := eq_of_beq about
      rw [use v inside here] at wanted
      exact ⟨v, inside, here, wanted⟩
    · rintro ⟨v, inside, here, wanted⟩
      refine ⟨v.use, List.mem_filter.mpr ⟨(h.notes _).mpr ⟨v, inside, rfl⟩, ?_⟩, ?_⟩
      · simp [use v inside here]
      · simp [use v inside here, wanted]

/-- A slot that has a shared reference tells of the accesses by reference. -/
theorem Records.resolved_iff (h : Records us d) {r : SharedRef}
    (held : d.builder.slotOf? r.id = some (.resolved (.object (.shared r)))) :
    r.isMutable = true ↔ r.id.isAlwaysImmutable = false ∧
      ((∃ u ∈ us, u.id = r.id ∧ u.byReference = true ∧ u.isMutable = true) ∨
        ((∀ u ∈ us, u.id = r.id → u.byReference = false) ∧
          ∃ u ∈ us, u.id = r.id ∧ u.isMutable = true)) := by
  have slot := h.slots r.id
  rw [held] at slot
  obtain ⟨id, version, isMutable⟩ := r
  cases slot with
  | shared _ _ byReference joins =>
    have mixed : ¬ ∀ u ∈ us, u.id = id → u.byReference = false := by
      obtain ⟨u, present, here, reference⟩ := byReference
      intro byId
      cases (byId u present here).symm.trans reference
    simp only [mixed, false_and, or_false]
    exact joins

/-- A slot that lacks its reference was never accessed by one. -/
theorem Records.unresolved_iff (h : Records us d) {id : Address} {receiving : Bool}
    (held : d.builder.slotOf? id = some (.unresolved id receiving)) :
    (d.wantsMutable id && !id.isAlwaysImmutable) = true ↔ id.isAlwaysImmutable = false ∧
      ((∃ u ∈ us, u.id = id ∧ u.byReference = true ∧ u.isMutable = true) ∨
        ((∀ u ∈ us, u.id = id → u.byReference = false) ∧
          ∃ u ∈ us, u.id = id ∧ u.isMutable = true)) := by
  have wanted := h.wantsMutable_iff held
  have slot := h.slots id
  rw [held] at slot
  cases slot with
  | unresolved _ _ byId =>
    have none : ¬ ∃ u ∈ us, u.id = id ∧ u.byReference = true ∧ u.isMutable = true := by
      rintro ⟨u, present, here, reference, -⟩
      cases (byId u present here).symm.trans reference
    rw [Bool.and_eq_true, Bool.not_eq_true', wanted, and_comm]
    simp only [none, false_or, and_iff_right byId]

end Draft

/-! ### Runs with their accesses -/

namespace SessionOp

variable {σ : Type}

/-- The accesses that an operation makes. One that fails makes none. -/
def accesses (c : Channel σ) (s : Online σ) : SessionOp → List Access
  | build op =>
    match op.step s.session with
    | .ok _ _ => op.accesses
    | .error _ _ => []
  | moveCall target values typeArguments =>
    match Session.moveCall c target values typeArguments s, CallTarget.parse target with
    | .ok _ _, .ok t =>
      match Session.function c t.package t.module.name t.function.name s with
      | .ok f _ => f.accesses values
      | .error _ _ => []
    | _, _ => []
  | _ => []

def Takes (P : BuilderStep Argument → Prop) : SessionOp → Prop
  | build op => op.Takes P
  | _ => True

theorem accesses_quiet {c : Channel σ} {s : Online σ} {op : SessionOp} (quiet : ¬ op.BuildsOn) :
    op.accesses c s = [] := by
  cases op with
  | build | moveCall => exact absurd trivial quiet
  | _ => rfl

end SessionOp

namespace Session

/-- A session that operations lead to, with the accesses that they made. Whoever else takes steps on the
builder names no objects there. -/
inductive Accessed : List Access → Session → Prop
  | start (config : ClientConfig) : Accessed [] (start config)
  | step {σ : Type} (c : Channel σ) (op : SessionOp) (own : op.Takes BuilderStep.Plain) (s : Online σ)
      {us : List Access} (before : Accessed us s.session) :
      Accessed (us ++ op.accesses c s) (after (op.step c s)).session

variable {σ : Type}

/-- If the session is still to be finalized, nothing was done to its draft. -/
def Settles (s t : Session) : Prop :=
  t.finalized = none → s.finalized = none ∧ t.draft = s.draft

theorem permits_settles (c : Channel σ) : Permits c Settles where
  refl := fun _ undone => ⟨undone, rfl⟩
  trans := by
    intro a b c first next undone
    obtain ⟨undone, same⟩ := next undone
    obtain ⟨undone, same'⟩ := first undone
    exact ⟨undone, same.trans same'⟩
  price := fun _ _ _ _ _ _ undone => ⟨undone, rfl⟩
  function := fun _ _ undone => ⟨undone, rfl⟩
  finalizes := by
    intro budget coin s t data f undone
    rw [f.session_eq] at undone
    cases undone
  submits := fun _ _ undone => ⟨undone, rfl⟩
  expires := fun _ _ _ _ undone => ⟨undone, rfl⟩
  sender := fun _ _ undone => ⟨undone, rfl⟩
  sponsor := fun _ _ undone => ⟨undone, rfl⟩

theorem settles_step (c : Channel σ) {op : SessionOp} (quiet : ¬ op.BuildsOn) :
    Moves Settles (op.step c) := by
  apply moves_step (permits_settles c) op _ fun builds => absurd builds quiet
  rintro price rfl
  exact moves_map (moves_modify (permits_settles c).toAlong fun s _ _ undone => ⟨undone, rfl⟩)

theorem moveCall_ok {c : Channel σ} {target : String} {values : List CallValue}
    {typeArguments : List TypeTag} {s t : Online σ} {handles : List Argument}
    (run : moveCall c target values typeArguments s = .ok handles t) :
    ∃ call f u d, CallTarget.parse target = .ok call ∧
      function c call.package call.module.name call.function.name s = .ok f u ∧
      f.checkCounts target values.length typeArguments.length = .ok () ∧
      Draft.call call f values typeArguments s.session.draft = .ok handles d ∧
      s.session.finalized = none ∧ t.session = { u.session with draft := d } := by
  unfold moveCall at run
  obtain ⟨_, s₁, opened, run⟩ := bind_ok_iff.mp run
  obtain ⟨session, isOpen, rfl⟩ := offline_ok_iff.mp opened
  rcases ensureOpen_cases s.session with ⟨e, closed⟩ | ⟨-, -, still⟩
  · cases closed.symm.trans isOpen
  obtain ⟨-, rfl⟩ := EStateM.Result.ok.inj (still.symm.trans isOpen)
  obtain ⟨call, _, named, run⟩ := bind_ok_iff.mp run
  obtain ⟨parsed, rfl⟩ := ofExcept_ok_iff.mp named
  obtain ⟨f, u, found, run⟩ := bind_ok_iff.mp run
  obtain ⟨_, _, counted, run⟩ := bind_ok_iff.mp run
  obtain ⟨fits, rfl⟩ := ofExcept_ok_iff.mp counted
  obtain ⟨session, edited, rfl⟩ := offline_ok_iff.mp run
  have frame := (moves_function (learns_frame c) _ _ _).ok found
  rcases edit_cases (Draft.call call f values typeArguments) u.session with
    ⟨e, failed⟩ | ⟨a, d, -, undone, taken, done⟩
  · cases failed.symm.trans edited
  · obtain ⟨rfl, rfl⟩ := EStateM.Result.ok.inj (done.symm.trans edited)
    rw [frame.draft] at taken
    rw [frame.finalized] at undone
    exact ⟨call, f, u, d, parsed, found, fits, taken, undone, rfl⟩

theorem fails_moveCall {c : Channel σ} {R : Session → Session → Prop} (learns : Learns c R)
    (target : String) (values : List CallValue) (typeArguments : List TypeTag) :
    Fails R (moveCall c target values typeArguments) := by
  have along := learns.toAlong
  unfold moveCall
  apply fails_bind along (moves_ensureOpen along)
  intro _
  apply fails_bind along (moves_ofExcept along _ _)
  intro t
  apply fails_bind along (moves_function learns _ _ _)
  intro f
  apply fails_bind along (moves_ofExcept along _ _)
  intro _ s e u run
  rcases edit_cases (Draft.call t f values typeArguments) s.session with
    ⟨e', failed⟩ | ⟨a, d, -, -, -, done⟩
  · obtain ⟨-, rfl⟩ := EStateM.Result.error.inj ((offline_of_error failed).symm.trans run)
    exact along.refl s.session
  · cases (offline_ok_iff.mpr ⟨_, done, rfl⟩ : offline _ s = .ok a _).symm.trans run

/-- One more operation on the draft records its accesses as well. -/
theorem records_build (c : Channel σ) {op : BuildOp} (own : op.Takes BuilderStep.Plain) {s : Online σ}
    {us : List Access} (before : s.session.finalized = none → s.session.draft.Records us)
    (undone : (after (SessionOp.step c (.build op) s)).session.finalized = none) :
    (after (SessionOp.step c (.build op) s)).session.draft.Records
      (us ++ SessionOp.accesses c s (.build op)) := by
  rcases BuildOp.builds_step op own s.session with ⟨e, run⟩ | ⟨a, d, -, isOpen, evolves, run⟩
  · have stays : after (SessionOp.step c (.build op) s) = s :=
      congrArg after (map_of_error (offline_of_error run))
    have none : SessionOp.accesses c s (.build op) = [] := by simp only [SessionOp.accesses, run]
    rw [stays] at undone ⊢
    rw [none, List.append_nil]
    exact before undone
  · have ends : after (SessionOp.step c (.build op) s) = { s with session := _ } :=
      congrArg after (map_of_ok (offline_ok_iff.mpr ⟨_, run, rfl⟩))
    have made : SessionOp.accesses c s (.build op) = op.accesses := by
      simp only [SessionOp.accesses, run]
    rw [ends, made]
    exact evolves.records (before isOpen)

/-- A call that fails may have learnt the function, but has left the draft alone. -/
theorem records_moveCall (c : Channel σ) (target : String) (values : List CallValue)
    (typeArguments : List TypeTag) {s : Online σ} {us : List Access}
    (before : s.session.finalized = none → s.session.draft.Records us)
    (undone : (after (SessionOp.step c (.moveCall target values typeArguments) s)).session.finalized = none) :
    (after (SessionOp.step c (.moveCall target values typeArguments) s)).session.draft.Records
      (us ++ SessionOp.accesses c s (.moveCall target values typeArguments)) := by
  cases run : moveCall c target values typeArguments s with
  | error e t =>
    have ends : after (SessionOp.step c (.moveCall target values typeArguments) s) = t :=
      congrArg after (map_of_error run)
    have none : SessionOp.accesses c s (.moveCall target values typeArguments) = [] := by
      simp only [SessionOp.accesses, run]
    have settles := fails_moveCall (permits_settles c).toLearns target values typeArguments s e t run
    rw [ends] at undone ⊢
    obtain ⟨isOpen, same⟩ := settles undone
    rw [none, List.append_nil, same]
    exact before isOpen
  | ok handles t =>
    obtain ⟨call, f, u, d, parsed, found, -, taken, isOpen, final⟩ := moveCall_ok run
    have ends : after (SessionOp.step c (.moveCall target values typeArguments) s) = t :=
      congrArg after (map_of_ok run)
    have made : SessionOp.accesses c s (.moveCall target values typeArguments) = f.accesses values := by
      simp only [SessionOp.accesses, run, parsed, found]
    rw [ends, made, final]
    exact (Draft.acts_call call f values typeArguments _ _ _ taken).records (before isOpen)

/-- As long as a session can be finalized, its draft records the accesses that were made. -/
theorem Accessed.records {us : List Access} {s : Session} (h : Accessed us s)
    (undone : s.finalized = none) : s.draft.Records us := by
  induction h with
  | start config => exact Draft.records_empty
  | step c op own s before ih =>
    by_cases builds : op.BuildsOn
    · cases op with
      | build op => exact records_build c own ih undone
      | moveCall target values typeArguments =>
        exact records_moveCall c target values typeArguments ih undone
      | _ => exact builds.elim
    · obtain ⟨isOpen, same⟩ := settles_step c builds s undone
      rw [SessionOp.accesses_quiet builds, List.append_nil, same]
      exact ih isOpen

/-! ### Finalizing -/

theorem supplied_shared {o : LiveObject} {receiving isMutable : Bool} {r : SharedRef}
    (shared : o.supplied receiving isMutable = .shared r) :
    r.id = o.id ∧ r.isMutable = (isMutable && !o.id.isAlwaysImmutable) := by
  unfold LiveObject.supplied at shared
  split at shared
  · obtain rfl := ObjectArg.shared.inj shared
    exact ⟨rfl, rfl⟩
  · cases receiving <;> cases shared

/-- A shared object is taken mutably when it may be and an access that counts asked for it. Those by
reference count, and those by id only if there are no others. -/
theorem finalize_mutability (c : Channel σ) {us : List Access} {s t : Online σ}
    (accessed : Accessed us s.session) {budget : Option UInt64} {coin : Option Address}
    {data : TransactionData} (run : finalize c budget coin s = .ok data t) {r : SharedRef}
    (input : .object (.shared r) ∈ data.kind.transaction.inputs) :
    r.isMutable = true ↔ r.id.isAlwaysImmutable = false ∧
      ((∃ u ∈ us, u.id = r.id ∧ u.byReference = true ∧ u.isMutable = true) ∨
        ((∀ u ∈ us, u.id = r.id → u.byReference = false) ∧
          ∃ u ∈ us, u.id = r.id ∧ u.isMutable = true)) := by
  obtain ⟨f⟩ := finalize_ok run
  have records := accessed.records f.undone
  have wellFormed := records.wellFormed
  obtain ⟨answers, -, -, supplied⟩ := resolve_supplied wellFormed f.resolves
  obtain ⟨i, place⟩ := List.mem_iff_getElem?.mp input
  have inside : i < s.session.draft.builder.slots.length := by
    rw [← f.inputs_length supplied.keys]
    exact (List.getElem?_eq_some_iff.mp place).1
  have slot := List.getElem?_eq_getElem inside
  generalize s.session.draft.builder.slots[i] = before at slot
  cases before with
  | resolved arg =>
    -- The slot was resolved by an access by reference, and tells of those alone.
    have kept := f.input (supplied.resolved_get wellFormed slot)
    obtain rfl := Option.some.inj (kept.symm.trans place)
    obtain ⟨-, held⟩ := Builder.slotOf?_of_place wellFormed slot rfl
    exact records.resolved_iff held
  | unresolved id receiving =>
    obtain ⟨o, -, same, filled⟩ := supplied.unresolved_get wellFormed slot
    have arg := Option.some.inj ((f.input filled).symm.trans place)
    obtain ⟨named, isMutable⟩ := supplied_shared (CallArg.object.inj arg)
    obtain ⟨-, held⟩ := Builder.slotOf?_of_place wellFormed slot rfl
    rw [named, same, isMutable, same]
    exact records.unresolved_iff held

/-! ### A write that is lost -/

/-- A chain with a board that functions read or write, as they say. -/
def boards : Channel Unit where
  gasPrice := return 1000
  object id _ := throw (.notAvailable id .missing)
  objects _ _ := return []
  function _ _ name := return ⟨.everywhere, false, [],
    if name = "read" then [.reference (.struct (.ofNat 5) "board" "Board" [])]
    else [.mutableReference (.struct (.ofNat 5) "board" "Board" [])], []⟩
  coins _ _ _ _ := return ⟨[⟨Coin.gasType, .ofNat 102, 1, .zero, 9000, none⟩], none, false⟩
  dryRun _ := throw (.execution .notSigned)
  execute _ _ _ := throw (.execution .notSigned)

/-- A call that reads the board, which is given by an immutable reference. -/
def readsBoard : SessionOp :=
  .moveCall "0x5::board::read" [.shared ⟨.ofNat 768, 7, false⟩] []

/-- A call that writes the board, which is given by its id. -/
def writesBoard : SessionOp :=
  .moveCall "0x5::board::write" [.objectId (.ofNat 768)] []

/-- A session that reads the board and then writes it. -/
def readThenWritten : Online Unit :=
  after (writesBoard.step boards (after (readsBoard.step boards ⟨start {}, ()⟩)))

theorem readThenWritten_accessed :
    Accessed [⟨.ofNat 768, true, false⟩, ⟨.ofNat 768, false, true⟩] readThenWritten.session := by
  have read := Accessed.step boards readsBoard trivial ⟨start {}, ()⟩ (.start {})
  have written := Accessed.step boards writesBoard trivial _ read
  have made : ([] ++ readsBoard.accesses boards ⟨start {}, ()⟩) ++
      writesBoard.accesses boards (after (readsBoard.step boards ⟨start {}, ()⟩)) =
        [⟨.ofNat 768, true, false⟩, ⟨.ofNat 768, false, true⟩] := by decide +kernel
  rw [made] at written
  exact written

theorem readThenWritten_finalize :
    ∃ data t, finalize boards (some 4000) none readThenWritten = .ok data t ∧
      data.kind.transaction.inputs = [.object (.shared ⟨.ofNat 768, 7, false⟩)] := by
  have inputs : (value? (finalize boards (some 4000) none readThenWritten)).map
      (·.kind.transaction.inputs) = some [.object (.shared ⟨.ofNat 768, 7, false⟩)] := by decide +kernel
  exact map_value?_eq_some inputs

/-- The access that reads the board by reference is the only one that counts. -/
theorem readThenWritten_mutability :
    ∃ data t, finalize boards (some 4000) none readThenWritten = .ok data t ∧
      .object (.shared ⟨.ofNat 768, 7, false⟩) ∈ data.kind.transaction.inputs ∧
      ∀ r, .object (.shared r) ∈ data.kind.transaction.inputs → r.isMutable = false := by
  obtain ⟨data, t, run, inputs⟩ := readThenWritten_finalize
  refine ⟨data, t, run, by rw [inputs]; exact List.mem_singleton.mpr rfl, ?_⟩
  intro r input
  have same : r.id = .ofNat 768 := by
    rw [inputs, List.mem_singleton] at input
    rw [ObjectArg.shared.inj (CallArg.object.inj input)]
  have counts := finalize_mutability boards readThenWritten_accessed run input
  rw [same] at counts
  apply eq_false_of_ne_true
  intro isMutable
  exact absurd (counts.mp isMutable) (by decide)

/-- The board is written, and may be, but is not taken mutably. -/
theorem readThenWritten_lost :
    ∃ us data t, Accessed us readThenWritten.session ∧
      finalize boards (some 4000) none readThenWritten = .ok data t ∧
      ∃ r, .object (.shared r) ∈ data.kind.transaction.inputs ∧ r.id.isAlwaysImmutable = false ∧
        (∃ u ∈ us, u.id = r.id ∧ u.isMutable = true) ∧ r.isMutable = false := by
  obtain ⟨data, t, run, inputs⟩ := readThenWritten_finalize
  refine ⟨_, data, t, readThenWritten_accessed, run, ⟨.ofNat 768, 7, false⟩, ?_, by decide, ?_, rfl⟩
  · rw [inputs]
    exact List.mem_singleton.mpr rfl
  · exact ⟨⟨.ofNat 768, false, true⟩, by decide, rfl, rfl⟩

end Session

end MoveTx
