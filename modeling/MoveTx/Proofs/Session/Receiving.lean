import MoveTx.Proofs.Builder.Gain
import MoveTx.Proofs.Session.Mutability

/-!
# Objects that are to be received

A call that receives its last argument marks the object. What is known to be received stays so until the
session is finalized, as long as nobody else supplies references to the builder. An object that is known
by id alone may turn out to be shared, and then its input is that of a shared object.
-/

namespace MoveTx
open Step

/-- Whether an operation supplies a reference. -/
def BuilderOp.Resolves : BuilderOp → Prop
  | resolve _ => True
  | _ => False

/-- A step that is made of operations which supply no references. -/
def BuilderStep.Unresolving {α : Type} (x : BuilderStep α) : Prop :=
  ∀ b a t, x b = .ok a t →
    ∃ ops : List BuilderOp, (∀ op ∈ ops, ¬ op.Resolves) ∧ t = ops.foldl (fun b op => op.next b) b

/-! ### Slots that last -/

namespace InputSlot

/-- A property of slots that only supplying a reference can take away. -/
def Lasts (p : InputSlot → Prop) : Prop :=
  ∀ (op : BuilderOp) slot slot', ¬ op.Resolves → op.Leaves slot slot' → p slot → p slot'

/-- The object is to be received, or is known to be shared. -/
inductive IsReserved (id : Address) : InputSlot → Prop
  | marked : IsReserved id (.unresolved id true)
  | receiving (r : ObjectRef) (about : r.id = id) :
      IsReserved id (.resolved (.object (.receiving r)))
  | shared (r : SharedRef) (about : r.id = id) : IsReserved id (.resolved (.object (.shared r)))

theorem lasts_receiving (r : ObjectRef) : Lasts (· = .resolved (.object (.receiving r))) := by
  rintro op slot slot' supplies leaves rfl
  rcases leaves with gains | ⟨arg, replaces, -⟩
  · cases gains
    rfl
  · cases replaces
    exact absurd trivial supplies

theorem lasts_reserved (id : Address) : Lasts (IsReserved id) := by
  intro op slot slot' supplies leaves reserved
  rcases leaves with gains | ⟨arg, replaces, rfl⟩
  · cases reserved with
    | marked =>
      cases gains with
      | same => exact .marked
      | receive r => exact .receiving r rfl
    | receiving r about =>
      cases gains with
      | same => exact .receiving r about
    | shared r about =>
      cases gains with
      | same => exact .shared r about
      | widen => exact .shared _ about
  · cases replaces with
    | resolved | resolveMarked => exact absurd trivial supplies
    | objectMarked r =>
      cases reserved with
      | marked => exact .shared r rfl

theorem Lasts.foldl {p : InputSlot → Prop} (lasts : Lasts p) {b : Builder} (h : b.WellFormed)
    (ops : List BuilderOp) (supply : ∀ op ∈ ops, ¬ op.Resolves) {id : Address} {slot : InputSlot}
    (held : b.slotOf? id = some slot) (here : p slot) :
    ∃ slot', (ops.foldl (fun b op => op.next b) b).slotOf? id = some slot' ∧ p slot' := by
  induction ops generalizing b slot with
  | nil => exact ⟨slot, held, here⟩
  | cons op rest ih =>
    obtain ⟨first, others⟩ := List.forall_mem_cons.mp supply
    obtain ⟨now, held', leaves⟩ := BuilderOp.next_slot h op held
    exact ih (BuilderOp.next_keeps h op).1 others held' (lasts op slot now first leaves here)

end InputSlot

namespace Draft

variable {us : List Access} {d t : Draft}

/-- What is done to a draft is done to its builder by operations that supply nothing. -/
theorem Act.ops (act : Act BuilderStep.Unresolving d us t) :
    ∃ ops : List BuilderOp, (∀ op ∈ ops, ¬ op.Resolves) ∧
      t.builder = ops.foldl (fun b op => op.next b) d.builder := by
  cases act with
  | lower value p a t run =>
    rcases lowerObject_ok run with rfl | ⟨op, inside⟩
    · exact ⟨[], nofun, rfl⟩
    · refine ⟨[op], List.forall_mem_singleton.mpr ?_, (congrArg after inside).symm⟩
      intro resolves
      cases op with
      | resolve arg =>
        obtain ⟨_, -, other⟩ := map_ok_iff.mp inside
        cases other
      | _ => exact resolves
  | build op plain answer b run =>
    refine ⟨[op], List.forall_mem_singleton.mpr ?_, (congrArg after run).symm⟩
    intro resolves
    cases op with
    | resolve arg => exact plain
    | _ => exact resolves
  | custom x own a b run => exact own _ _ _ run

theorem Evolves.ops (evolves : Evolves BuilderStep.Unresolving d us t) :
    ∃ ops : List BuilderOp, (∀ op ∈ ops, ¬ op.Resolves) ∧
      t.builder = ops.foldl (fun b op => op.next b) d.builder := by
  induction evolves with
  | refl => exact ⟨[], nofun, rfl⟩
  | tail before act ih =>
    obtain ⟨ops, supply, reached⟩ := ih
    obtain ⟨more, supply', reached'⟩ := act.ops
    refine ⟨ops ++ more, ?_, ?_⟩
    · intro op inside
      exact (List.mem_append.mp inside).elim (supply op) (supply' op)
    · rw [reached', reached, List.foldl_append]

end Draft

/-! ### Marking the last argument -/

/-- What a slot is once its object is to be received. -/
inductive InputSlot.IsMarked : InputSlot → Prop
  | unresolved (id : Address) : IsMarked (.unresolved id true)
  | receiving (r : ObjectRef) : IsMarked (.resolved (.object (.receiving r)))

theorem Builder.markReceiving_ok {b c : Builder} {arg : Argument} (run : markReceiving arg b = .ok () c) :
    ∃ i : UInt16, arg = .input i ∧ ∃ slot, c.slots[i.toNat]? = some slot ∧ slot.IsMarked := by
  have run := open_ok run
  rw [get_bind] at run
  cases arg with
  | gasCoin | result | nestedResult => cases run
  | input i =>
    refine ⟨i, rfl, ?_⟩
    simp only at run
    cases here : b.slots[i.toNat]? with
    | none =>
      simp only [here] at run
      cases run
    | some slot =>
      have put : ∀ new : InputSlot, (b.setSlot i.toNat new).slots[i.toNat]? = some new := by
        intro new
        obtain ⟨key, entry⟩ := slots_get.mp here
        refine slots_get.mpr ⟨key, ?_⟩
        rw [setSlot_get, entry, Option.map_some, if_pos rfl]
      simp only [here] at run
      cases slot with
      | unresolved id receiving =>
        cases run
        exact ⟨_, put _, .unresolved id⟩
      | resolved arg =>
        cases arg with
        | pure bytes => cases run
        | object arg =>
          cases arg with
          | owned r =>
            cases run
            exact ⟨_, put _, .receiving r⟩
          | shared r => cases run
          | receiving r =>
            cases run
            exact ⟨_, here, .receiving r⟩

namespace Draft

theorem append_ok {c : Command} {d t : Draft} {a : Argument} (run : append c d = .ok a t) :
    t.builder.slots = d.builder.slots ∧ t.builder.commands = d.builder.commands ++ [c] := by
  obtain ⟨b, inside, rfl⟩ := onBuilder_ok_iff.mp run
  rcases Builder.command_cases c d.builder with ⟨e, failed⟩ | ⟨-, appended⟩
  · cases failed.symm.trans inside
  · cases appended.symm.trans inside
    exact ⟨rfl, rfl⟩

/-- A call that succeeds has lowered its values, has received its last argument if the function takes one,
and has been appended. -/
theorem call_ok {target : CallTarget} {f : MoveFunction} {values : List CallValue}
    {typeArguments : List TypeTag} {d t : Draft} {results : List Argument}
    (run : call target f values typeArguments d = .ok results t) :
    ∃ arguments u v result,
      (values.zip f.userParameters).mapM
        (fun (value, t) => lower value (some t) : CallValue × MoveType → DraftStep Argument) d =
          .ok arguments u ∧
      (if f.receivesLast then receiveLast arguments u = .ok () v else v = u) ∧
      append (.moveCall ⟨target.package, target.module, target.function, typeArguments, arguments⟩) v =
        .ok result t ∧
      results = result.returned f.returns.length := by
  unfold call at run
  obtain ⟨arguments, u, lowered, run⟩ := bind_ok_iff.mp run
  by_cases receives : f.receivesLast = true
  · rw [if_pos receives] at run
    obtain ⟨_, v, received, run⟩ := bind_ok_iff.mp run
    obtain ⟨result, _, appended, run⟩ := bind_ok_iff.mp run
    obtain ⟨rfl, rfl⟩ := pure_ok_iff.mp run
    exact ⟨arguments, u, v, result, lowered, (if_pos receives).mpr received, appended, rfl⟩
  · rw [if_neg receives] at run
    obtain ⟨result, _, appended, run⟩ := bind_ok_iff.mp run
    obtain ⟨rfl, rfl⟩ := pure_ok_iff.mp run
    exact ⟨arguments, u, u, result, lowered, (if_neg receives).mpr rfl, appended, rfl⟩

/-- The last handle of a call that receives has its object marked. -/
theorem call_marks {target : CallTarget} {f : MoveFunction} {values : List CallValue}
    {typeArguments : List TypeTag} {d t : Draft} {results : List Argument}
    (run : call target f values typeArguments d = .ok results t) (receives : f.receivesLast = true)
    {made : MoveCall} (appended : t.builder.commands.getLast? = some (.moveCall made)) {i : UInt16}
    (last : made.arguments.getLast? = some (.input i)) :
    ∃ slot, t.builder.slots[i.toNat]? = some slot ∧ slot.IsMarked := by
  obtain ⟨arguments, u, v, result, -, marks, appends, -⟩ := call_ok run
  rw [if_pos receives] at marks
  obtain ⟨slots, commands⟩ := append_ok appends
  -- The command that was appended has the handles as its arguments.
  rw [commands, List.getLast?_concat] at appended
  obtain rfl := Command.moveCall.inj (Option.some.inj appended)
  unfold receiveLast at marks
  rw [last] at marks
  obtain ⟨b, inside, rfl⟩ := onBuilder_ok_iff.mp marks
  obtain ⟨j, same, slot, place, isMarked⟩ := Builder.markReceiving_ok inside
  obtain rfl := Argument.input.inj same
  rw [slots]
  exact ⟨slot, place, isMarked⟩

end Draft

namespace Session

/-- A session that operations lead to from another one, each on any channel and whether or not it fails.
The steps of somebody else are those of `P`. -/
inductive Follows (P : BuilderStep Argument → Prop) (s : Session) : Session → Prop
  | refl : Follows P s s
  | step {σ : Type} (c : Channel σ) (op : SessionOp) (own : op.Takes P) (t : Online σ)
      (before : Follows P s t.session) : Follows P s (after (op.step c t)).session

variable {σ : Type} {P : BuilderStep Argument → Prop}

/-- If a session is still to be finalized after an operation, its draft has evolved at most. -/
theorem evolves_step (c : Channel σ) {op : SessionOp} (own : op.Takes P) {s : Online σ}
    (undone : (after (op.step c s)).session.finalized = none) :
    s.session.finalized = none ∧
      ∃ us, Draft.Evolves P s.session.draft us (after (op.step c s)).session.draft := by
  have still : s.session.finalized = none ∧ (after (op.step c s)).session.draft = s.session.draft →
      s.session.finalized = none ∧
        ∃ us, Draft.Evolves P s.session.draft us (after (op.step c s)).session.draft := by
    rintro ⟨isOpen, same⟩
    rw [same]
    exact ⟨isOpen, [], .refl⟩
  by_cases builds : op.BuildsOn
  · cases op with
    | build op =>
      rcases BuildOp.builds_step op own s.session with ⟨e, run⟩ | ⟨a, d, -, isOpen, evolves, run⟩
      · have stays : after (SessionOp.step c (.build op) s) = s :=
          congrArg after (map_of_error (offline_of_error run))
        rw [stays] at undone still
        rw [stays]
        exact still ⟨undone, rfl⟩
      · have ends : after (SessionOp.step c (.build op) s) = { s with session := _ } :=
          congrArg after (map_of_ok (offline_ok_iff.mpr ⟨_, run, rfl⟩))
        rw [ends]
        exact ⟨isOpen, _, evolves⟩
    | moveCall target values typeArguments =>
      cases run : moveCall c target values typeArguments s with
      | error e t =>
        have ends : after (SessionOp.step c (.moveCall target values typeArguments) s) = t :=
          congrArg after (map_of_error run)
        rw [ends] at undone still
        rw [ends]
        exact still (fails_moveCall (permits_settles c).toLearns target values typeArguments s e t run
          undone)
      | ok handles t =>
        obtain ⟨call, f, u, d, -, -, -, taken, isOpen, final⟩ := moveCall_ok run
        have ends : after (SessionOp.step c (.moveCall target values typeArguments) s) = t :=
          congrArg after (map_of_ok run)
        rw [ends, final]
        exact ⟨isOpen, _, Draft.acts_call call f values typeArguments _ _ _ taken⟩
    | _ => exact builds.elim
  · exact still (settles_step c builds s undone)

theorem Follows.evolves {s t : Session} (follows : Follows P s t) (undone : t.finalized = none) :
    s.finalized = none ∧ ∃ us, Draft.Evolves P s.draft us t.draft := by
  induction follows with
  | refl => exact ⟨undone, [], .refl⟩
  | step c op own t before ih =>
    obtain ⟨isOpen, us, evolves⟩ := evolves_step c own undone
    obtain ⟨isOpen, vs, earlier⟩ := ih isOpen
    exact ⟨isOpen, vs ++ us, earlier.trans evolves⟩

/-- What lasts in a slot is in the slot at the same place for as long as the session is open. -/
theorem Follows.slot {s t : Session} (follows : Follows BuilderStep.Unresolving s t)
    (undone : t.finalized = none) (h : s.draft.builder.WellFormed) {p : InputSlot → Prop}
    (lasts : InputSlot.Lasts p) {i : Nat} {slot : InputSlot} {id : Address}
    (place : s.draft.builder.slots[i]? = some slot) (about : slot.objectId? = some id) (here : p slot) :
    t.draft.builder.WellFormed ∧ ∃ slot', t.draft.builder.slots[i]? = some slot' ∧ p slot' := by
  obtain ⟨-, us, evolves⟩ := follows.evolves undone
  obtain ⟨ops, supply, reached⟩ := evolves.ops
  obtain ⟨key, held⟩ := Builder.slotOf?_of_place h place about
  obtain ⟨slot', held', here'⟩ := lasts.foldl h ops supply held here
  obtain ⟨wellFormed, ext⟩ := BuilderOp.foldl_keeps ops h
  rw [reached]
  refine ⟨wellFormed, slot', ?_, here'⟩
  exact Builder.slots_get_of_slotOf? wellFormed.keys_nodup (Builder.getElem?_of_prefix ext.keys key) held'

/-! ### What a received object is finalized as -/

/-- How an object that was to be received may turn out to be shared: a shared reference to it was given,
or the chain answers with a shared object. -/
def TurnsShared (c : Channel σ) (s : Online σ) (i : Nat) (id : Address) : Prop :=
  (∃ r : SharedRef, r.id = id ∧
    s.session.draft.builder.slots[i]? = some (.resolved (.object (.shared r)))) ∨
    ∃ answers chain, c.objects s.session.draft.builder.unresolvedIds {} s.chain = .ok answers chain ∧
      ∃ o initialVersion, .live o ∈ answers ∧ o.id = id ∧ o.owner = .shared initialVersion

theorem supplied_receiving (o : LiveObject) (isMutable : Bool) :
    o.supplied true isMutable = .receiving o.ref ∨
      ∃ r initialVersion, r.id = o.id ∧ o.supplied true isMutable = .shared r ∧
        o.owner = .shared initialVersion := by
  unfold LiveObject.supplied
  cases o.owner with
  | shared initialVersion => exact Or.inr ⟨_, initialVersion, rfl, rfl, rfl⟩
  | _ => exact Or.inl rfl

/-- An input that is reserved when the session is finalized is received, unless it is shared. -/
theorem Finalization.reserved {c : Channel σ} {budget : Option UInt64} {coin : Option Address}
    {s t : Online σ} {data : TransactionData} (f : Finalization c budget coin s t data)
    (h : s.session.draft.builder.WellFormed) {i : Nat} {id : Address} {slot : InputSlot}
    (place : s.session.draft.builder.slots[i]? = some slot) (reserved : slot.IsReserved id) :
    (∃ r, r.id = id ∧ data.kind.transaction.inputs[i]? = some (.object (.receiving r))) ∨
      (∃ r, r.id = id ∧ data.kind.transaction.inputs[i]? = some (.object (.shared r))) ∧
        TurnsShared c s i id := by
  obtain ⟨answers, asked, -, supplied⟩ := resolve_supplied h f.resolves
  cases reserved with
  | receiving r about => exact Or.inl ⟨r, about, f.input (supplied.resolved_get h place)⟩
  | shared r about =>
    exact Or.inr ⟨⟨r, about, f.input (supplied.resolved_get h place)⟩, Or.inl ⟨r, about, place⟩⟩
  | marked =>
    obtain ⟨o, answer, same, filled⟩ := supplied.unresolved_get h place
    have input := f.input filled
    have some : s.session.draft.builder.unresolvedIds ≠ [] :=
      List.ne_nil_of_mem (List.mem_of_getElem? (Builder.unresolvedIds_get place))
    obtain ⟨chain, answered⟩ := asked some
    rcases supplied_receiving o (s.session.draft.wantsMutable id) with
      received | ⟨r, initialVersion, about, shared, owner⟩
    · rw [received] at input
      exact Or.inl ⟨o.ref, same, input⟩
    · rw [shared] at input
      refine Or.inr ⟨⟨r, about.trans same, input⟩, Or.inr ⟨answers, chain, answered, ?_⟩⟩
      exact ⟨o, initialVersion, List.mem_of_getElem? answer, same, owner⟩

/-- A call that succeeded, of a function that receives its last argument, which became the input at a
place. -/
structure Receives (c : Channel σ) (target : String) (values : List CallValue)
    (typeArguments : List TypeTag) (s t : Online σ) (i : UInt16) : Prop where
  called : ∃ handles, moveCall c target values typeArguments s = .ok handles t
  receives : ∃ callee f u, CallTarget.parse target = .ok callee ∧
    function c callee.package callee.module.name callee.function.name s = .ok f u ∧
    f.receivesLast = true
  last : ∃ call, t.session.draft.builder.commands.getLast? = some (.moveCall call) ∧
    call.arguments.getLast? = some (.input i)

theorem Receives.marks {c : Channel σ} {target : String} {values : List CallValue}
    {typeArguments : List TypeTag} {s t : Online σ} {i : UInt16}
    (made : Receives c target values typeArguments s t i) :
    ∃ slot, t.session.draft.builder.slots[i.toNat]? = some slot ∧ slot.IsMarked := by
  obtain ⟨handles, called⟩ := made.called
  obtain ⟨callee, f, u, parsed, found, receives⟩ := made.receives
  obtain ⟨call, appended, last⟩ := made.last
  obtain ⟨callee', f', u', d, parsed', found', -, taken, -, final⟩ := moveCall_ok called
  obtain rfl := Except.ok.inj (parsed'.symm.trans parsed)
  obtain ⟨rfl, rfl⟩ := EStateM.Result.ok.inj (found'.symm.trans found)
  have drafted : t.session.draft = d := congrArg Session.draft final
  rw [drafted] at appended ⊢
  exact Draft.call_marks taken receives appended last

theorem Receives.reachable {c : Channel σ} {target : String} {values : List CallValue}
    {typeArguments : List TypeTag} {s t : Online σ} {i : UInt16}
    (made : Receives c target values typeArguments s t i) (before : s.session.Reachable) :
    t.session.Reachable := by
  obtain ⟨handles, called⟩ := made.called
  have step : after (SessionOp.step c (.moveCall target values typeArguments) s) = t :=
    congrArg after (map_of_ok called)
  rw [← step]
  exact .step c (.moveCall target values typeArguments) s before

/-- A call that receives its last argument reserves the input for it. If the reference of the object was
known by then, every later transaction receives that reference. Otherwise it receives the object, unless
the object turns out to be shared. It is never taken as an owned object. -/
theorem receives_finalize {τ : Type} (c : Channel σ) (c' : Channel τ) {s t : Online σ}
    (before : s.session.Reachable) {target : String} {values : List CallValue}
    {typeArguments : List TypeTag} {i : UInt16}
    (made : Receives c target values typeArguments s t i) {later done : Online τ}
    (follows : Follows BuilderStep.Unresolving t.session later.session) {budget : Option UInt64}
    {coin : Option Address} {data : TransactionData}
    (finalized : finalize c' budget coin later = .ok data done) :
    (∃ r, t.session.draft.builder.slots[i.toNat]? = some (.resolved (.object (.receiving r))) ∧
        data.kind.transaction.inputs[i.toNat]? = some (.object (.receiving r))) ∨
      ∃ id, t.session.draft.builder.slots[i.toNat]? = some (.unresolved id true) ∧
        ((∃ r, r.id = id ∧ data.kind.transaction.inputs[i.toNat]? = some (.object (.receiving r))) ∨
          (∃ r, r.id = id ∧ data.kind.transaction.inputs[i.toNat]? = some (.object (.shared r))) ∧
            TurnsShared c' later i.toNat id) := by
  obtain ⟨f⟩ := finalize_ok finalized
  have wellFormed := (made.reachable before).builder.wellFormed
  obtain ⟨slot, place, isMarked⟩ := made.marks
  cases isMarked with
  | receiving r =>
    obtain ⟨h, slot', place', rfl⟩ :=
      follows.slot f.undone wellFormed (InputSlot.lasts_receiving r) place rfl rfl
    obtain ⟨answers, -, -, supplied⟩ := resolve_supplied h f.resolves
    exact Or.inl ⟨r, place, f.input (supplied.resolved_get h place')⟩
  | unresolved id =>
    obtain ⟨h, slot', place', reserved⟩ :=
      follows.slot f.undone wellFormed (InputSlot.lasts_reserved id) place rfl .marked
    exact Or.inr ⟨id, place, f.reserved h place' reserved⟩

/-! ### An object that is received, and one that is shared -/

/-- A call on objects that are given by their ids, the last of which is to be received. -/
def acceptsCall (first last : Address) : OnlineStep Unit (List Argument) :=
  moveCall everyObject "0x5::inbox::accept" [.objectId first, .objectId last] []

def accepts (first last : Address) : Online Unit :=
  after (acceptsCall first last ⟨start {}, ()⟩)

theorem accepts_function :
    ∃ callee f u, CallTarget.parse "0x5::inbox::accept" = .ok callee ∧
      function everyObject callee.package callee.module.name callee.function.name ⟨start {}, ()⟩ =
        .ok f u ∧ f.receivesLast = true := by
  have receives : (match CallTarget.parse "0x5::inbox::accept" with
      | .ok callee =>
        match function everyObject callee.package callee.module.name callee.function.name
            ⟨start {}, ()⟩ with
        | .ok f _ => f.receivesLast
        | .error _ _ => false
      | .error _ => false) = true := by decide +kernel
  cases parsed : CallTarget.parse "0x5::inbox::accept" with
  | error e =>
    rw [parsed] at receives
    cases receives
  | ok callee =>
    simp only [parsed] at receives
    cases found : function everyObject callee.package callee.module.name callee.function.name
        ⟨start {}, ()⟩ with
    | error e u =>
      rw [found] at receives
      cases receives
    | ok f u =>
      rw [found] at receives
      exact ⟨callee, f, u, rfl, found, receives⟩

/-- The last argument of the last command, if that is a call. -/
def lastArgument? (b : Builder) : Option Argument :=
  match b.commands.getLast? with
  | some (.moveCall call) => call.arguments.getLast?
  | _ => none

theorem accepts_receives {first last : Address}
    (made : (match acceptsCall first last ⟨start {}, ()⟩ with
      | .ok _ t => lastArgument? t.session.draft.builder
      | .error _ _ => none) = some (.input 1)) :
    Receives everyObject "0x5::inbox::accept" [.objectId first, .objectId last] [] ⟨start {}, ()⟩
      (accepts first last) 1 := by
  unfold accepts
  cases called : acceptsCall first last ⟨start {}, ()⟩ with
  | error e t =>
    rw [called] at made
    cases made
  | ok handles t =>
    simp only [called] at made
    refine ⟨⟨handles, called⟩, accepts_function, ?_⟩
    change ∃ call, t.session.draft.builder.commands.getLast? = _ ∧ _
    unfold lastArgument? at made
    split at made
    · rename_i call appended
      exact ⟨call, appended, made⟩
    · cases made

/-- The inputs once the session is finalized, if it can be. -/
def finalizedInputs (first last : Address) : List CallArg :=
  match finalize everyObject none none (accepts first last) with
  | .ok data _ => data.kind.transaction.inputs
  | .error _ _ => []

theorem accepts_finalize {first last : Address} {inputs : List CallArg}
    (taken : finalizedInputs first last = inputs) (some : inputs ≠ []) :
    ∃ data done, finalize everyObject none none (accepts first last) = .ok data done ∧
      data.kind.transaction.inputs = inputs := by
  unfold finalizedInputs at taken
  cases run : finalize everyObject none none (accepts first last) with
  | error e t =>
    rw [run] at taken
    exact absurd taken.symm some
  | ok data t =>
    rw [run] at taken
    exact ⟨data, t, rfl, taken⟩

theorem parcel_received :
    ∃ data done, finalize everyObject none none (accepts .clock (.ofNat 101)) = .ok data done ∧
      ∃ r, r.id = .ofNat 101 ∧ data.kind.transaction.inputs[1]? = some (.object (.receiving r)) := by
  have made : Receives everyObject "0x5::inbox::accept" [.objectId .clock, .objectId (.ofNat 101)] []
      ⟨start {}, ()⟩ (accepts .clock (.ofNat 101)) 1 := accepts_receives (by decide +kernel)
  have taken : finalizedInputs .clock (.ofNat 101) =
      [.object (.shared ⟨.clock, 1, false⟩), .object (.receiving ⟨.ofNat 101, 7, .zero⟩)] := by
    decide +kernel
  obtain ⟨data, done, run, inputs⟩ := accepts_finalize taken (List.cons_ne_nil _ _)
  refine ⟨data, done, run, ?_⟩
  have marked : (accepts .clock (.ofNat 101)).session.draft.builder.slots[1]? =
      some (.unresolved (.ofNat 101) true) := by decide +kernel
  rcases receives_finalize everyObject everyObject (.start {}) made .refl run with
    ⟨r, known, -⟩ | ⟨id, place, received | ⟨⟨r, -, shared⟩, -⟩⟩
  · cases marked.symm.trans known
  · cases marked.symm.trans place
    exact received
  · rw [inputs] at shared
    cases shared

/-- The clock is marked to be received, turns out to be shared, and is taken as a shared object. -/
theorem clock_not_received :
    ∃ data done, Receives everyObject "0x5::inbox::accept" [.objectId (.ofNat 101), .objectId .clock] []
        ⟨start {}, ()⟩ (accepts (.ofNat 101) .clock) 1 ∧
      finalize everyObject none none (accepts (.ofNat 101) .clock) = .ok data done ∧
      data.kind.transaction.inputs[1]? = some (.object (.shared ⟨.clock, 1, false⟩)) := by
  have taken : finalizedInputs (.ofNat 101) .clock =
      [.object (.owned ⟨.ofNat 101, 7, .zero⟩), .object (.shared ⟨.clock, 1, false⟩)] := by
    decide +kernel
  obtain ⟨data, done, run, inputs⟩ := accepts_finalize taken (List.cons_ne_nil _ _)
  refine ⟨data, done, accepts_receives (by decide +kernel), run, ?_⟩
  rw [inputs]
  rfl

end Session

end MoveTx
