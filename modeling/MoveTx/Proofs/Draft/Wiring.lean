import MoveTx.Draft.Coins
import MoveTx.Proofs.Builder.Touch
import MoveTx.Proofs.Draft.Lowering

/-!
# What steps leave behind

A step on a draft admits what it needs and appends its commands. `Builder.Grows` says what becomes of all
that was there before. Commands and inputs keep their places, and only the slots of objects that the step
names may be completed. What was admitted is found at its handle from then on.
-/

namespace MoveTx
open Step

/-- What is matched with the item at a place. -/
theorem forall₂_getElem? {α β : Type} {R : α → β → Prop} {xs : List α} {ys : List β}
    (all : List.Forall₂ R xs ys) {k : Nat} {x : α} (place : xs[k]? = some x) :
    ∃ y, ys[k]? = some y ∧ R x y := by
  obtain ⟨inside, rfl⟩ := List.getElem?_eq_some_iff.mp place
  have inside' : k < ys.length := all.length_eq ▸ inside
  exact ⟨ys[k], List.getElem?_eq_getElem inside', all.get inside inside'⟩

/-- What a slot is once its object was admitted again. A reference that it lacked is known, or a shared
object may now be changed. -/
inductive InputSlot.Completes : InputSlot → InputSlot → Prop
  | same (slot : InputSlot) : Completes slot slot
  | supply (arg : ObjectArg) (receiving : Bool) :
      Completes (.unresolved arg.id receiving) (.resolved (.object arg))
  | widen (r : SharedRef) :
      Completes (.resolved (.object (.shared r))) (.resolved (.object (.shared { r with isMutable := true })))

namespace InputSlot

variable {slot slot' slot'' : InputSlot}

theorem Completes.trans (first : slot.Completes slot') (rest : slot'.Completes slot'') :
    slot.Completes slot'' := by
  cases first with
  | same => exact rest
  | widen r =>
    cases rest with
    | same | widen => exact .widen r
  | supply arg receiving =>
    cases rest with
    | same => exact .supply arg receiving
    | widen r => exact .supply (.shared { r with isMutable := true }) receiving

/-- What merging adds to a slot is a reference that was missing, or that a shared object is mutable. -/
theorem completes_merged {arg : ObjectArg}
    (holds : (InputKey.object arg.id).Holds slot)
    (merge : Builder.mergeObject slot arg = .ok slot') : slot.Completes slot' := by
  rcases BuilderOp.leaves_merged holds merge with gains | ⟨_, replaces, rfl⟩
  · cases gains with
    | same => exact .same slot
    | supply given => exact .supply given false
    | receive r => exact .supply (.receiving r) true
    | widen r => exact .widen r
    | mark id => cases merge
    | hand r =>
      unfold Builder.mergeObject at merge
      simp only at merge
      split at merge <;> cases merge
  · cases replaces with
    | objectMarked r => exact .supply (.shared r) true

end InputSlot

/-- The object that a value names, whatever parameter it is given for. -/
def CallValue.object? : CallValue → Option Address
  | address id | objectId id => some id
  | object r => some r.id
  | shared r => some r.id
  | _ => none

namespace Builder

variable {b c e : Builder} {ids ids' : List Address} {commands commands' : List Command} {a : Argument}

/-! ### What was there before -/

/-- The slot of an object is still this one, or has been completed if the object is one of these. -/
def Retains (ids : List Address) (c : Builder) (id : Address) (slot : InputSlot) : Prop :=
  ∃ slot', c.slotOf? id = some slot' ∧ slot.Completes slot' ∧ (slot' ≠ slot → id ∈ ids)

/-- These commands are behind those that were there, and no slot of an object is different but those of
these objects, which may be completed. -/
structure Grows (ids : List Address) (commands : List Command) (b c : Builder) : Prop where
  wellFormed : c.WellFormed
  ext : b.Extends c
  appended : c.commands = b.commands ++ commands
  slots : ∀ id slot, b.slotOf? id = some slot → Retains ids c id slot

theorem retains_same {id : Address} {slot : InputSlot} (held : c.slotOf? id = some slot) :
    Retains ids c id slot :=
  ⟨slot, held, .same slot, fun differs => absurd rfl differs⟩

theorem grows_refl (h : b.WellFormed) : b.Grows [] [] b where
  wellFormed := h
  ext := extends_refl b
  appended := (List.append_nil _).symm
  slots := fun _ _ held => retains_same held

theorem Grows.trans (first : b.Grows ids commands c) (rest : c.Grows ids' commands' e) :
    b.Grows (ids ++ ids') (commands ++ commands') e where
  wellFormed := rest.wellFormed
  ext := first.ext.trans rest.ext
  appended := by rw [rest.appended, first.appended, List.append_assoc]
  slots := by
    intro id slot held
    obtain ⟨slot', held', completes, named⟩ := first.slots id slot held
    obtain ⟨slot'', held'', completes', named'⟩ := rest.slots id slot' held'
    refine ⟨slot'', held'', completes.trans completes', fun differs => List.mem_append.mpr ?_⟩
    by_cases same : slot' = slot
    · exact Or.inr (named' (same ▸ differs))
    · exact Or.inl (named same)

/-- Every input keeps its place and its key. Only the slots of objects can be different. -/
theorem Extends.input (ext : b.Extends c) (h : b.WellFormed) (h' : c.WellFormed) {i : Nat} {key : InputKey}
    {slot : InputSlot} (place : b.inputs[i]? = some (key, slot)) :
    ∃ slot', c.inputs[i]? = some (key, slot') ∧
      (slot' = slot ∨ ∃ id, key = .object id ∧ b.slotOf? id = some slot ∧ c.slotOf? id = some slot') := by
  have inside := List.mem_of_getElem? place
  have object : ∀ id, key = .object id → ∃ slot', c.inputs[i]? = some (key, slot') ∧
      (slot' = slot ∨ ∃ id, key = .object id ∧ b.slotOf? id = some slot ∧ c.slotOf? id = some slot') := by
    rintro id rfl
    have stays := getElem?_of_prefix ext.keys (keys_get.mpr ⟨slot, place⟩)
    obtain ⟨slot', there⟩ := keys_get.mp stays
    exact ⟨slot', there, Or.inr ⟨id, rfl, (slotOf?_eq_some h.keys_nodup).mpr inside,
      (slotOf?_eq_some h'.keys_nodup).mpr (List.mem_of_getElem? there)⟩⟩
  have holds := h.slots_hold _ inside
  cases holds with
  | unresolved id receiving => exact object id rfl
  | object arg => exact object arg.id rfl
  | pure | unique => exact ⟨_, ext.pures i _ _ place, Or.inl rfl⟩

theorem Grows.input (grows : b.Grows ids commands c) (h : b.WellFormed) {i : Nat} {key : InputKey}
    {slot : InputSlot} (place : b.inputs[i]? = some (key, slot)) :
    ∃ slot', c.inputs[i]? = some (key, slot') ∧ slot.Completes slot' ∧
      (slot' ≠ slot → ∃ id ∈ ids, key = .object id) := by
  obtain ⟨slot', there, same | ⟨id, about, held, held'⟩⟩ := grows.ext.input h grows.wellFormed place
  · subst same
    exact ⟨slot', there, .same slot', fun differs => absurd rfl differs⟩
  · obtain ⟨found, stays, completes, named⟩ := grows.slots id slot held
    obtain rfl := Option.some.inj (held'.symm.trans stays)
    exact ⟨slot', there, completes, fun differs => ⟨id, named differs, about⟩⟩

/-! ### What the handles stand for -/

/-- Whether a handle is that of an input with these bytes. -/
def Holds (b : Builder) (bytes : Bytes) (a : Argument) : Prop :=
  ∃ i : UInt16, a = .input i ∧ b.slots[i.toNat]? = some (.resolved (.pure bytes))

/-- Whether a handle is that of an object: the one that was given, or that of the input of the object. -/
inductive Names (b : Builder) : CallValue → Argument → Prop
  | handle (a : Argument) : Names b (.argument a) a
  | object {v : CallValue} {id : Address} {i : UInt16} (names : v.object? = some id)
      (place : b.keys[i.toNat]? = some (.object id)) : Names b v (.input i)

/-- Whether what is found in a builder for an item is found there in every later one. -/
def Lasts {α β : Type} (R : Builder → α → β → Prop) : Prop :=
  ∀ b c x y, b.Extends c → R b x y → R c x y

theorem Holds.mono {bytes : Bytes} (ext : b.Extends c) (holds : b.Holds bytes a) : c.Holds bytes a := by
  obtain ⟨i, rfl, place⟩ := holds
  obtain ⟨key, entry⟩ := slots_get.mp place
  exact ⟨i, rfl, slots_get.mpr ⟨key, ext.pures _ _ _ entry⟩⟩

theorem Names.mono {v : CallValue} (ext : b.Extends c) (names : b.Names v a) : c.Names v a := by
  cases names with
  | handle => exact .handle a
  | object names place =>
    have stays := getElem?_of_prefix ext.keys place
    exact .object names stays

theorem lasts_holds {α : Type} (bytes : α → Bytes) : Lasts fun b x a => b.Holds (bytes x) a :=
  fun _ _ _ _ ext holds => holds.mono ext

theorem lasts_names : Lasts Names :=
  fun _ _ _ _ ext names => names.mono ext

/-! ### Steps of the builder -/

theorem admission_grows (op : BuilderOp) (h : b.WellFormed) {x : BuilderStep Argument} {y : Admitted}
    (made : op.step = .handle <$> x) (admits : op.admits? = some y) (run : x b = .ok a c)
    (slots : ∀ id slot, op.Touches b id → b.slotOf? id = some slot → Retains ids c id slot) :
    b.Grows ids [] c := by
  obtain ⟨wellFormed, ext⟩ := BuilderOp.run_keeps op h made run
  have next : op.next b = c := BuilderOp.next_eq made run
  refine ⟨wellFormed, ext, ?_, ?_⟩
  · have none : op.command? = none := by cases op <;> first | rfl | cases admits
    have commands := BuilderOp.next_commands h op
    rw [next, BuilderOp.appended?, none, ite_self] at commands
    exact commands
  · intro id slot held
    by_cases touches : op.Touches b id
    · exact slots id slot touches held
    · have goesOn : op ≠ .finalize := by
        rintro rfl
        cases admits
      have same := (BuilderOp.next_spares h goesOn).slots id touches
      rw [next, held] at same
      exact retains_same same

theorem pure_grows (h : b.WellFormed) {v : PureValue} (run : Builder.pure v b = .ok a c) :
    b.Grows [] [] c ∧ c.Holds v.toBytes a :=
  ⟨admission_grows (.pure v) h rfl rfl run fun _ _ => False.elim, pure_place h run⟩

theorem objectId_grows (h : b.WellFormed) {id : Address} (run : objectId id b = .ok a c) :
    b.Grows [id] [] c ∧ ∃ i : UInt16, a = .input i ∧ c.keys[i.toNat]? = some (.object id) := by
  refine ⟨?_, BuilderOp.run_place (.objectId id) h rfl rfl run⟩
  apply admission_grows (.objectId id) h rfl rfl run
  rintro _ slot rfl held
  have puts := objectId_puts run
  rw [held] at puts
  exact retains_same puts.here

theorem object_grows (h : b.WellFormed) {arg : ObjectArg} (run : object arg b = .ok a c) :
    b.Grows [arg.id] [] c ∧ ∃ i : UInt16, a = .input i ∧ c.keys[i.toNat]? = some (.object arg.id) := by
  refine ⟨?_, BuilderOp.run_place (.object arg) h rfl rfl run⟩
  apply admission_grows (.object arg) h rfl rfl run
  rintro _ slot rfl held
  rcases object_puts h run with ⟨absent, -⟩ | ⟨old, merged, there, merge, puts⟩
  · cases absent.symm.trans held
  · obtain rfl := Option.some.inj (there.symm.trans held)
    have holds := h.slots_hold _ (mem_of_slotOf? held)
    exact ⟨merged, puts.here, InputSlot.completes_merged holds merge, fun _ => List.mem_singleton.mpr rfl⟩

theorem command_grows (h : b.WellFormed) {appends : Command} (run : command appends b = .ok a c) :
    b.Grows [] [appends] c ∧ ∃ j : UInt16, a = .result j ∧ j.toNat = b.commands.length := by
  obtain ⟨wellFormed, ext⟩ := BuilderOp.run_keeps (.command appends) h rfl run
  rcases command_cases appends b with ⟨e, failed⟩ | ⟨room, done⟩
  · cases failed.symm.trans run
  · cases done.symm.trans run
    have fits : maxCommands ≤ maxInputs := by decide
    exact ⟨⟨wellFormed, ext, rfl, fun _ _ held => retains_same held⟩, _, rfl,
      BuilderOp.toNat_ofNat_of_le fits room⟩

theorem makeMoveVec_grows (h : b.WellFormed) {type : Option TypeTag} {elements : List Argument}
    (run : makeMoveVec type elements b = .ok a c) :
    b.Grows [] [.makeMoveVec type elements] c ∧
      ∃ j : UInt16, a = .result j ∧ j.toNat = b.commands.length := by
  unfold makeMoveVec at run
  split at run
  · cases run
  · exact command_grows h run

end Builder

namespace Draft

variable {d t u : Draft} {a : Argument} {v : CallValue} {p : Parameter}

/-! ### Steps of a draft -/

theorem pureInput_grows (h : d.builder.WellFormed) {w : PureValue} (run : pureInput w d = .ok a t) :
    d.builder.Grows [] [] t.builder ∧ t.builder.Holds w.toBytes a := by
  obtain ⟨b, inside, rfl⟩ := onBuilder_ok_iff.mp run
  exact Builder.pure_grows h inside

theorem append_grows (h : d.builder.WellFormed) {c : Command} (run : append c d = .ok a t) :
    d.builder.Grows [] [c] t.builder ∧
      ∃ j : UInt16, a = .result j ∧ j.toNat = d.builder.commands.length := by
  obtain ⟨b, inside, rfl⟩ := onBuilder_ok_iff.mp run
  exact Builder.command_grows h inside

theorem lowerObject_grows (h : d.builder.WellFormed) (run : lowerObject v p d = .ok a t) :
    d.builder.Grows v.object?.toList [] t.builder ∧ t.builder.Names v a := by
  unfold lowerObject at run
  cases v with
  | argument handle =>
    obtain ⟨rfl, rfl⟩ := pure_ok_iff.mp run
    exact ⟨Builder.grows_refl h, .handle _⟩
  | address id | objectId id =>
    simp only [noteUse_bind] at run
    obtain ⟨b, inside, rfl⟩ := onBuilder_ok_iff.mp run
    obtain ⟨grows, i, rfl, place⟩ := Builder.objectId_grows h inside
    exact ⟨grows, .object rfl place⟩
  | object r =>
    obtain ⟨b, inside, rfl⟩ := onBuilder_ok_iff.mp run
    obtain ⟨grows, i, rfl, place⟩ := Builder.object_grows h inside
    exact ⟨grows, .object rfl place⟩
  | shared r =>
    simp only [noteUse_bind] at run
    obtain ⟨b, inside, rfl⟩ := onBuilder_ok_iff.mp run
    obtain ⟨grows, i, rfl, place⟩ := Builder.object_grows h inside
    exact ⟨grows, .object rfl place⟩
  | pure | seq | absent | present => exact (throw_ok_iff.mp run).elim

section

variable {α β : Type} {f : α → DraftStep β} {ids : α → List Address} {P : Command → Prop}
  {R : Builder → α → β → Prop} {start : Nat}

/-- Steps that are taken for one item after the other. What each finds for its item is so after all of
them, as `R` lasts. Commands before `start` are there from the beginning. -/
theorem mapM_grows (lasts : Builder.Lasts R)
    (each : ∀ x d y t, d.builder.WellFormed → start ≤ d.builder.commands.length → f x d = .ok y t →
      ∃ commands, (∀ c ∈ commands, P c) ∧ d.builder.Grows (ids x) commands t.builder ∧ R t.builder x y)
    {xs : List α} {ys : List β} (h : d.builder.WellFormed) (late : start ≤ d.builder.commands.length)
    (run : xs.mapM f d = .ok ys t) :
    ∃ commands, (∀ c ∈ commands, P c) ∧ d.builder.Grows (xs.flatMap ids) commands t.builder ∧
      List.Forall₂ (R t.builder) xs ys := by
  induction xs generalizing d ys with
  | nil =>
    obtain ⟨rfl, rfl⟩ := pure_ok_iff.mp run
    exact ⟨[], nofun, Builder.grows_refl h, .nil⟩
  | cons x rest ih =>
    rw [List.mapM_cons] at run
    obtain ⟨y, u, first, run⟩ := bind_ok_iff.mp run
    obtain ⟨others, u', later, done⟩ := bind_ok_iff.mp run
    obtain ⟨rfl, rfl⟩ := pure_ok_iff.mp done
    obtain ⟨here, among, grows, found⟩ := each x d y u h late first
    have late' : start ≤ u.builder.commands.length := by
      rw [grows.appended, List.length_append]
      exact Nat.le_add_right_of_le late
    obtain ⟨there, among', grows', found'⟩ := ih grows.wellFormed late' later
    refine ⟨here ++ there, ?_, grows.trans grows', .cons (lasts _ _ _ _ grows'.ext found) found'⟩
    intro c inside
    exact (List.mem_append.mp inside).elim (among c) (among' c)

/-- Steps that append no commands. -/
theorem mapM_grows_inputs (lasts : Builder.Lasts R)
    (each : ∀ x d y t, d.builder.WellFormed → f x d = .ok y t →
      d.builder.Grows (ids x) [] t.builder ∧ R t.builder x y)
    {xs : List α} {ys : List β} (h : d.builder.WellFormed) (run : xs.mapM f d = .ok ys t) :
    d.builder.Grows (xs.flatMap ids) [] t.builder ∧ List.Forall₂ (R t.builder) xs ys := by
  have each : ∀ x d y t, d.builder.WellFormed → 0 ≤ d.builder.commands.length → f x d = .ok y t →
      ∃ commands, (∀ c ∈ commands, False) ∧ d.builder.Grows (ids x) commands t.builder ∧ R t.builder x y :=
    fun x d y t h _ run => ⟨[], nofun, each x d y t h run⟩
  obtain ⟨commands, none, grows, found⟩ := mapM_grows lasts each h (Nat.zero_le _) run
  obtain rfl := List.eq_nil_iff_forall_not_mem.mpr none
  exact ⟨grows, found⟩

end

theorem lowerObjects_grows (h : d.builder.WellFormed) {values : List CallValue} {handles : List Argument}
    (run : lowerObjects values d = .ok handles t) :
    d.builder.Grows (values.filterMap CallValue.object?) [] t.builder ∧
      List.Forall₂ t.builder.Names values handles := by
  have each : ∀ value d a t, d.builder.WellFormed → lowerObject value none d = .ok a t →
      d.builder.Grows value.object?.toList [] t.builder ∧ t.builder.Names value a :=
    fun _ _ _ _ h run => lowerObject_grows h run
  rw [List.filterMap_eq_flatMap_toList]
  exact mapM_grows_inputs Builder.lasts_names each h run

theorem pureInputs_grows {α : Type} (value : α → PureValue) {xs : List α} {handles : List Argument}
    (h : d.builder.WellFormed) (run : xs.mapM (fun x => pureInput (value x)) d = .ok handles t) :
    d.builder.Grows [] [] t.builder ∧
      List.Forall₂ (fun x a => t.builder.Holds (value x).toBytes a) xs handles := by
  have each : ∀ x d a t, d.builder.WellFormed → pureInput (value x) d = .ok a t →
      d.builder.Grows [] [] t.builder ∧ t.builder.Holds (value x).toBytes a :=
    fun _ _ _ _ h run => pureInput_grows h run
  have all := mapM_grows_inputs (Builder.lasts_holds fun x => (value x).toBytes) each h run
  rw [List.flatMap_eq_nil_iff.mpr fun _ _ => rfl] at all
  exact all

/-! ### Coins -/

/-- A split has one part for each amount, in order, and each is an input with the bytes of its amount. -/
theorem split_grows (h : d.builder.WellFormed) {coin : CallValue} {amounts : List UInt64}
    (run : split coin amounts d = .ok a t) :
    ∃ (j : UInt16) (source : Argument) (parts : List Argument), a = .result j ∧
      j.toNat = d.builder.commands.length ∧
      d.builder.Grows coin.object?.toList [.splitCoins source parts] t.builder ∧
      t.builder.Names coin source ∧
      List.Forall₂ (fun amount part => t.builder.Holds (littleEndian 8 amount.toNat) part) amounts parts := by
  obtain ⟨source, u, lowered, run⟩ := bind_ok_iff.mp run
  obtain ⟨parts, u', admitted, run⟩ := bind_ok_iff.mp run
  obtain ⟨grows, names⟩ := lowerObject_grows h lowered
  obtain ⟨grows', holds⟩ := pureInputs_grows PureValue.ofU64 grows.wellFormed admitted
  obtain ⟨grows'', j, rfl, place⟩ := append_grows grows'.wellFormed run
  have all := (grows.trans grows').trans grows''
  rw [List.append_nil, List.append_nil] at all
  refine ⟨j, source, parts, rfl, ?_, all, names.mono (grows'.trans grows'').ext, ?_⟩
  · rw [place, grows'.appended, grows.appended, List.append_nil, List.append_nil]
  · exact holds.imp fun _ _ holds => holds.mono grows''.ext

end Draft

end MoveTx
