import MoveTx.Draft.Lowering
import MoveTx.Proofs.Builder.Sharing
import MoveTx.Proofs.Builder.Slot
import MoveTx.Proofs.Draft.Evolution

/-!
# What lowering makes of a value

A value comes to one pure input, to the handle of an object, or to a vector of such handles. Which of them
it is follows the kind of the parameter for values without parts. Sequences and optional values are looked
at together with their items alone, whatever the parameter is.
-/

namespace MoveTx
open Step

namespace CallValue

/-- The object that a value without parts names, if it names one. -/
def named? (p : Parameter) : CallValue → Option Address
  | address id => if p.mayTakeObject then some id else none
  | objectId id => some id
  | object r => some r.id
  | shared r => some r.id
  | _ => none

/-- The objects that are admitted when a value is lowered. A sequence that is pure throughout admits none. -/
def admitted (p : Parameter) : CallValue → List Address
  | seq items =>
    if (asPureList? items p.element).isSome then [] else items.filterMap (named? p.element)
  | v => (v.named? p).toList

/-- Sequences and optional values. -/
def IsComposite : CallValue → Prop
  | seq _ | absent | present _ => True
  | _ => False

variable {v : CallValue} {p : Parameter}

theorem admitted_of_asPure? {w : PureValue} (form : v.asPure? p = some w) : v.admitted p = [] := by
  cases v with
  | address id =>
    unfold asPure? at form
    split at form
    · cases form
    · rename_i other
      simp [admitted, named?, other]
  | seq items =>
    obtain ⟨values, list, -⟩ := Option.map_eq_some_iff.mp form
    simp [admitted, list]
  | pure | absent | present => rfl
  | argument | objectId | object | shared => cases form

theorem admitted_of_canBeObject (fits : v.canBeObject p = true) :
    v.admitted p = (v.named? p).toList ∧ ¬ v.IsComposite := by
  cases v with
  | seq | absent | present => cases fits
  | _ => exact ⟨rfl, id⟩

end CallValue

theorem MoveType.not_mayTakeObject {t : MoveType} (pure : t.takesPure = true) :
    t.mayTakeObject = false := by
  unfold takesPure at pure
  unfold mayTakeObject takesObject
  generalize t.dereferenced = u at pure ⊢
  cases u
  case struct => simpa [struct?] using pure
  case typeParameter => cases pure
  all_goals rfl

theorem Parameter.not_takesPure {p : Parameter} (may : p.mayTakeObject = true) :
    p.takesPure = false := by
  cases p with
  | none => rfl
  | some t =>
    cases pure : t.takesPure with
    | true => cases (MoveType.not_mayTakeObject pure).symm.trans may
    | false => exact pure

theorem Parameter.not_takesObject {p : Parameter} (other : ¬ p.mayTakeObject = true) :
    p.takesObject = false := by
  cases p with
  | none => rfl
  | some t =>
    change ¬ (t.takesObject || _) = true at other
    change t.takesObject = false
    simp only [Bool.or_eq_true, not_or, Bool.not_eq_true] at other
    exact other.1

namespace Builder

/-- Whether a handle is that of a pure input. -/
def IsPure (b : Builder) (a : Argument) : Prop :=
  ∃ (i : UInt16) (bytes : Bytes), a = .input i ∧ b.slots[i.toNat]? = some (.resolved (.pure bytes))

variable {b c : Builder} {a : Argument}

theorem not_isPure (h : b.WellFormed) {i : UInt16} {id : Address}
    (place : b.keys[i.toNat]? = some (.object id)) : ¬ b.IsPure (.input i) := by
  rintro ⟨_, bytes, same, here⟩
  cases same
  obtain ⟨slot, entry⟩ := keys_get.mp place
  obtain ⟨key, entry'⟩ := slots_get.mp here
  cases entry.symm.trans entry'
  exact InputKey.Holds.not_pure (h.slots_hold _ (List.mem_of_getElem? entry))

/-- A pure value that is admitted is found at its handle. -/
theorem pure_place (h : b.WellFormed) {v : PureValue} (run : Builder.pure v b = .ok a c) :
    ∃ i : UInt16, a = .input i ∧ c.slots[i.toNat]? = some (.resolved (.pure v.toBytes)) := by
  obtain ⟨wellFormed, -⟩ := BuilderOp.run_keeps (.pure v) h rfl run
  obtain ⟨i, same, place⟩ := BuilderOp.run_place (.pure v) h rfl rfl run
  refine ⟨i, same, ?_⟩
  obtain ⟨slot, entry⟩ := keys_get.mp place
  have holds := wellFormed.slots_hold _ (List.mem_of_getElem? entry)
  cases holds with
  | pure => exact slots_get.mpr ⟨_, entry⟩

theorem insert_inUse {key : InputKey} {slot : InputSlot} (run : insert key slot b = .ok a c) :
    c.objectsInUse = b.objectsInUse := by
  rcases insert_cases key slot b with ⟨i, -, ended⟩ | ⟨-, -, ended⟩ | ⟨-, -, ended⟩
  · cases ended.symm.trans run
    rfl
  · cases ended.symm.trans run
  · cases ended.symm.trans run
    rfl

theorem objectId_inUse {id : Address} (run : objectId id b = .ok a c) :
    c.objectsInUse = Address.insert id b.objectsInUse := by
  obtain ⟨_, ready, used, run⟩ := bind_ok_iff.mp (open_ok run)
  cases used
  exact insert_inUse run

theorem object_inUse {arg : ObjectArg} (run : object arg b = .ok a c) :
    c.objectsInUse = b.objectsInUse ∨ c.objectsInUse = Address.insert arg.id b.objectsInUse := by
  rcases object_ok run with ⟨-, run⟩ | ⟨i, old, merged, -, -, rfl⟩
  · exact Or.inr (insert_inUse run)
  · exact Or.inl rfl

theorem makeMoveVec_ok {type : Option TypeTag} {elements : List Argument}
    (run : makeMoveVec type elements b = .ok a c) :
    ∃ j, a = .result j ∧ c = { b with commands := b.commands ++ [.makeMoveVec type elements] } := by
  unfold makeMoveVec at run
  split at run
  · exact (throw_ok_iff.mp run).elim
  · rcases command_cases (.makeMoveVec type elements) b with ⟨e, failed⟩ | ⟨-, ended⟩
    · cases failed.symm.trans run
    · cases ended.symm.trans run
      exact ⟨_, rfl, rfl⟩

end Builder

namespace Draft

/-! ### Admitted objects -/

/-- These objects are inputs now, and nothing has changed for any other. -/
structure Admits (ids : List Address) (d t : Draft) : Prop where
  inputs : ∀ id ∈ ids, .object id ∈ t.builder.keys
  slots : ∀ id ∉ ids, t.builder.slotOf? id = d.builder.slotOf? id
  uses : ∀ id ∉ ids, t.usesOf id = d.usesOf id
  inUse : ∀ id ∉ ids, (id ∈ t.builder.objectsInUse ↔ id ∈ d.builder.objectsInUse)

variable {d t u : Draft} {ids ids' : List Address} {a : Argument} {v : CallValue} {p : Parameter}

theorem admits_nothing (slots : ∀ id, t.builder.slotOf? id = d.builder.slotOf? id)
    (uses : t.uses = d.uses) (inUse : t.builder.objectsInUse = d.builder.objectsInUse) :
    d.Admits [] t where
  inputs := nofun
  slots := fun id _ => slots id
  uses := fun id _ => by rw [usesOf, usesOf, uses]
  inUse := fun id _ => by rw [inUse]

theorem Admits.trans (first : d.Admits ids t) (rest : t.Admits ids' u) : d.Admits (ids ++ ids') u := by
  have apart : ∀ {id}, id ∉ ids ++ ids' → id ∉ ids ∧ id ∉ ids' :=
    fun outside => not_or.mp (mt List.mem_append.mpr outside)
  refine ⟨?_, ?_, ?_, ?_⟩
  · intro id inside
    by_cases later : id ∈ ids'
    · exact rest.inputs id later
    · have before := first.inputs id ((List.mem_append.mp inside).resolve_right later)
      by_contra absent
      have none := Builder.slotOf?_eq_none.mpr absent
      rw [rest.slots id later] at none
      exact Builder.slotOf?_eq_none.mp none before
  · intro id outside
    exact (rest.slots id (apart outside).2).trans (first.slots id (apart outside).1)
  · intro id outside
    exact (rest.uses id (apart outside).2).trans (first.uses id (apart outside).1)
  · intro id outside
    exact (rest.inUse id (apart outside).2).trans (first.inUse id (apart outside).1)

theorem admits_object {id : Address} {slot : InputSlot} {b : Builder} {noted : List ObjectUse}
    (puts : d.builder.Puts id slot b) (notes : ∀ use ∈ noted, use.id = id)
    (inUse : b.objectsInUse = d.builder.objectsInUse ∨
      b.objectsInUse = Address.insert id d.builder.objectsInUse) :
    d.Admits [id] ⟨b, noted ++ d.uses⟩ where
  inputs := by
    intro other inside
    obtain rfl := List.mem_singleton.mp inside
    by_contra absent
    cases (Builder.slotOf?_eq_none.mpr absent).symm.trans puts.here
  slots := fun other outside => puts.other (mt List.mem_singleton.mpr outside)
  uses := by
    intro other outside
    have differs : other ≠ id := mt List.mem_singleton.mpr outside
    have none : noted.filter (fun use => use.id == other) = [] := by
      rw [List.filter_eq_nil_iff]
      intro use inside
      rw [notes use inside, beq_iff_eq]
      exact differs.symm
    rw [usesOf, List.filter_append, none, List.nil_append, usesOf]
  inUse := by
    intro other outside
    have differs : other ≠ id := mt List.mem_singleton.mpr outside
    rcases inUse with same | used
    · exact iff_of_eq (congrArg (other ∈ ·) same)
    · change other ∈ b.objectsInUse ↔ _
      rw [used, Address.mem_insert, or_iff_right differs]

theorem objectId_admits (h : d.builder.WellFormed) {id : Address} {b : Builder} (isMutable : Bool)
    (run : Builder.objectId id d.builder = .ok a b) :
    d.Admits [id] ⟨b, ⟨id, isMutable⟩ :: d.uses⟩ ∧ ¬ b.IsPure a := by
  have notes : ∀ use ∈ [ObjectUse.mk id isMutable], use.id = id := by simp
  obtain ⟨wellFormed, -⟩ := BuilderOp.run_keeps (.objectId id) h rfl run
  obtain ⟨i, rfl, place⟩ := BuilderOp.run_place (.objectId id) h rfl rfl run
  exact ⟨admits_object (Builder.objectId_puts run) notes (Or.inr (Builder.objectId_inUse run)),
    Builder.not_isPure wellFormed place⟩

theorem object_admits (h : d.builder.WellFormed) (arg : ObjectArg) {b : Builder}
    (noted : List ObjectUse) (notes : ∀ use ∈ noted, use.id = arg.id) (run : Builder.object arg d.builder = .ok a b) :
    d.Admits [arg.id] ⟨b, noted ++ d.uses⟩ ∧ ¬ b.IsPure a := by
  obtain ⟨wellFormed, -⟩ := BuilderOp.run_keeps (.object arg) h rfl run
  obtain ⟨i, rfl, place⟩ := BuilderOp.run_place (.object arg) h rfl rfl run
  refine ⟨?_, Builder.not_isPure wellFormed place⟩
  rcases Builder.object_puts h run with ⟨-, puts⟩ | ⟨_, _, -, -, puts⟩
  · exact admits_object puts notes (Builder.object_inUse run)
  · exact admits_object puts notes (Builder.object_inUse run)

theorem pureInput_admits (h : d.builder.WellFormed) {w : PureValue}
    (run : pureInput w d = .ok a t) : d.Admits [] t ∧ t.builder.IsPure a := by
  obtain ⟨b, inside, rfl⟩ := onBuilder_ok_iff.mp run
  obtain ⟨i, rfl, place⟩ := Builder.pure_place h inside
  have fresh : ∀ id, InputKey.pure w.encoded.bytes w.encoded.origin ≠ .object id := nofun
  have inserted : Builder.insert _ (.resolved (.pure w.encoded.bytes)) d.builder = _ :=
    Builder.open_ok inside
  refine ⟨admits_nothing ?_ rfl (Builder.insert_inUse inserted), i, _, rfl, place⟩
  intro id
  have same := Builder.insert_slotOf? fresh (.resolved (.pure w.encoded.bytes)) d.builder id
  rw [inserted] at same
  exact same

theorem lowerObject_admits (h : d.builder.WellFormed) (fits : v.canBeObject p = true)
    (run : lowerObject v p d = .ok a t) :
    d.Admits (v.named? p).toList t ∧ ((∃ handle, v = .argument handle) ∨ ¬ t.builder.IsPure a) := by
  unfold lowerObject at run
  cases v with
  | argument handle =>
    obtain ⟨-, rfl⟩ := pure_ok_iff.mp run
    exact ⟨admits_nothing (fun _ => rfl) rfl rfl, Or.inl ⟨handle, rfl⟩⟩
  | address id =>
    simp only [noteUse_bind] at run
    obtain ⟨b, inside, rfl⟩ := onBuilder_ok_iff.mp run
    have may : p.mayTakeObject = true := fits
    rw [CallValue.named?, if_pos may]
    exact (objectId_admits h _ inside).imp_right Or.inr
  | objectId id =>
    simp only [noteUse_bind] at run
    obtain ⟨b, inside, rfl⟩ := onBuilder_ok_iff.mp run
    exact (objectId_admits h _ inside).imp_right Or.inr
  | object r =>
    obtain ⟨b, inside, rfl⟩ := onBuilder_ok_iff.mp run
    exact (object_admits h (.owned r) [] (by simp) inside).imp_right Or.inr
  | shared r =>
    simp only [noteUse_bind] at run
    obtain ⟨b, inside, rfl⟩ := onBuilder_ok_iff.mp run
    exact (object_admits h (.shared (sharedUse r p)) [⟨r.id, _⟩] (by simp [sharedUse, ObjectArg.id])
      inside).imp_right Or.inr
  | pure | seq | absent | present => cases fits

theorem lowerEach_admits {items : List CallValue} {handles : List Argument}
    (reachable : d.builder.Reachable) (fits : items.all (CallValue.canBeObject p) = true)
    (run : items.mapM (fun item => lowerObject item p) d = .ok handles t) :
    t.builder.Reachable ∧ d.Admits (items.filterMap (CallValue.named? p)) t := by
  induction items generalizing d handles with
  | nil =>
    obtain ⟨-, rfl⟩ := pure_ok_iff.mp run
    exact ⟨reachable, admits_nothing (fun _ => rfl) rfl rfl⟩
  | cons item rest ih =>
    rw [List.all_cons, Bool.and_eq_true] at fits
    rw [List.mapM_cons] at run
    obtain ⟨handle, u, first, run⟩ := bind_ok_iff.mp run
    obtain ⟨others, u', later, done⟩ := bind_ok_iff.mp run
    obtain ⟨-, rfl⟩ := pure_ok_iff.mp done
    have admits := (lowerObject_admits reachable.wellFormed fits.1 first).1
    obtain ⟨reachable', admits'⟩ :=
      ih ((acts_lowerObject item p d handle u first).reachable reachable) fits.2 later
    refine ⟨reachable', ?_⟩
    rw [List.filterMap_eq_flatMap_toList, List.flatMap_cons, ← List.filterMap_eq_flatMap_toList]
    exact admits.trans admits'

theorem makeMoveVec_admits {type : Option TypeTag} {handles : List Argument}
    (run : onBuilder (Builder.makeMoveVec type handles) d = .ok a t) :
    d.Admits [] t ∧ ¬ t.builder.IsPure a := by
  obtain ⟨b, inside, rfl⟩ := onBuilder_ok_iff.mp run
  obtain ⟨j, rfl, rfl⟩ := Builder.makeMoveVec_ok inside
  refine ⟨admits_nothing (fun _ => rfl) rfl rfl, ?_⟩
  rintro ⟨_, _, same, -⟩
  cases same

/-! ### Kinds of values and of parameters -/

/-- What a value has come to when it is lowered. -/
inductive Lowered (v : CallValue) (p : Parameter) (d : Draft) (a : Argument) (t : Draft) : Prop
  | pure (w : PureValue) (form : v.asPure? p = some w)
      (suits : v.IsComposite ∨ p.takesObject = false) (run : pureInput w d = .ok a t)
  | object (fits : v.canBeObject p = true)
      (suits : (∃ handle, v = .argument handle) ∨ p.takesPure = false)
      (run : lowerObject v p d = .ok a t)
  | vector (items : List CallValue) (given : v = .seq items)
      (mixed : CallValue.asPureList? items p.element = none)
      (fits : items.all (CallValue.canBeObject p.element) = true) (type : Option TypeTag)
      (handles : List Argument) (u : Draft)
      (each : items.mapM (fun item => lowerObject item p.element) d = .ok handles u)
      (run : onBuilder (Builder.makeMoveVec type handles) u = .ok a t)

/-- A sequence is pure throughout and shows one type at most, or all of its items can be objects. -/
theorem lowerSeq_ok {items : List CallValue} {element : Parameter}
    (run : lowerSeq items element d = .ok a t) :
    (∃ values, CallValue.asPureList? items element = some values ∧ checkHomogeneous values = .ok () ∧
      pureInput (.seq values) d = .ok a t) ∨
    (CallValue.asPureList? items element = none ∧ items.all (CallValue.canBeObject element) = true ∧
      ∃ handles u, items.mapM (fun item => lowerObject item element) d = .ok handles u ∧
        onBuilder (Builder.makeMoveVec (element.bind MoveType.tag?) handles) u = .ok a t) := by
  unfold lowerSeq at run
  cases list : CallValue.asPureList? items element with
  | some values =>
    simp only [list] at run
    split at run
    · exact (throw_ok_iff.mp run).elim
    · cases check : checkHomogeneous values with
      | error e =>
        rw [check] at run
        exact (throw_ok_iff.mp run).elim
      | ok _ =>
        rw [check] at run
        exact Or.inl ⟨values, rfl, check, run⟩
  | none =>
    simp only [list] at run
    split at run
    · rename_i fits
      obtain ⟨handles, u, each, run⟩ := bind_ok_iff.mp run
      exact Or.inr ⟨rfl, fits, handles, u, each, run⟩
    · exact (throw_ok_iff.mp run).elim

theorem lower_ok (run : lower v p d = .ok a t) : Lowered v p d a t := by
  unfold lower at run
  cases v with
  | argument handle => exact .object rfl (Or.inl ⟨handle, rfl⟩) run
  | pure w =>
    simp only at run
    split at run
    · exact (throw_ok_iff.mp run).elim
    · rename_i other
      exact .pure w rfl (Or.inr (Bool.not_eq_true _ ▸ other)) run
  | address id =>
    simp only at run
    split at run
    · rename_i may
      exact .object may (Or.inr (Parameter.not_takesPure may)) run
    · rename_i other
      exact .pure (.ofAddress id) (if_neg other) (Or.inr (Parameter.not_takesObject other)) run
  | objectId | object | shared =>
    simp only at run
    split at run
    · exact (throw_ok_iff.mp run).elim
    · rename_i other
      exact .object rfl (Or.inr (Bool.not_eq_true _ ▸ other)) run
  | seq items =>
    rcases lowerSeq_ok run with ⟨values, list, -, run⟩ | ⟨mixed, fits, handles, u, each, run⟩
    · exact .pure (.seq values) (Option.map_eq_some_iff.mpr ⟨values, list, rfl⟩) (Or.inl trivial) run
    · exact .vector items rfl mixed fits _ handles u each run
  | absent => exact .pure .absent rfl (Or.inl trivial) run
  | present w =>
    cases inside : w.asPure? p.element with
    | some value =>
      simp only [inside] at run
      exact .pure (.present value) (Option.map_eq_some_iff.mpr ⟨value, inside, rfl⟩) (Or.inl trivial) run
    | none =>
      simp only [inside] at run
      exact (throw_ok_iff.mp run).elim

/-- A value without parts is never pure for a parameter that takes an object. Only a sequence that is not
pure throughout brings in an object for a parameter that takes pure bytes. -/
theorem lower_kind (reachable : d.builder.Reachable) (made : ∀ handle, v ≠ .argument handle)
    (run : lower v p d = .ok a t) :
    d.Admits (v.admitted p) t ∧
      (p.takesObject = true → (t.builder.IsPure a ↔ v.IsComposite ∧ (v.asPure? p).isSome = true)) ∧
      (p.takesPure = true → v.admitted p ≠ [] →
        ∃ items, v = .seq items ∧ CallValue.asPureList? items p.element = none) := by
  cases lower_ok run with
  | pure w form suits run =>
    obtain ⟨admits, isPure⟩ := pureInput_admits reachable.wellFormed run
    rw [CallValue.admitted_of_asPure? form]
    refine ⟨admits, ?_, fun _ some => absurd rfl some⟩
    intro takes
    have composite := suits.resolve_right (by simp [takes])
    exact iff_of_true isPure ⟨composite, by simp [form]⟩
  | object fits suits run =>
    obtain ⟨admits, notPure⟩ := lowerObject_admits reachable.wellFormed fits run
    obtain ⟨named, simple⟩ := CallValue.admitted_of_canBeObject fits
    rw [named]
    refine ⟨admits, ?_, ?_⟩
    · rintro -
      have notPure := notPure.resolve_left fun ⟨handle, given⟩ => made handle given
      exact iff_of_false notPure fun composite => simple composite.1
    · intro takes
      obtain ⟨handle, given⟩ := suits.resolve_right (by simp [takes])
      exact absurd given (made handle)
  | vector items given mixed fits type handles u each gather =>
    subst given
    obtain ⟨reachable', admits⟩ := lowerEach_admits reachable fits each
    obtain ⟨last, notPure⟩ := makeMoveVec_admits gather
    refine ⟨?_, ?_, fun _ _ => ⟨items, rfl, mixed⟩⟩
    · rw [CallValue.admitted, mixed, Option.isSome_none, if_neg Bool.false_ne_true,
        ← List.append_nil (items.filterMap _)]
      exact admits.trans last
    · rintro -
      refine iff_of_false notPure ?_
      rintro ⟨-, form⟩
      simp [CallValue.asPure?, mixed] at form

/-- The type of heroes, which are objects. -/
def hero : MoveType :=
  .struct .suiFramework "game" "Hero" []

/-- The address of a hero is no pure input, whatever reference it is behind. -/
theorem heroAddress_kind :
    ∃ t, lower (.address .clock) (some (.reference hero)) empty = .ok (.input 0) t ∧
      ¬ t.builder.IsPure (.input 0) ∧ .object .clock ∈ t.builder.keys := by
  obtain ⟨t, run⟩ : ∃ t, lower (.address .clock) (some (.reference hero)) empty = .ok (.input 0) t :=
    ⟨_, rfl⟩
  have reachable : empty.builder.Reachable := Builder.reachable_empty
  obtain ⟨admits, kind, -⟩ := lower_kind reachable (fun _ => CallValue.noConfusion) run
  refine ⟨t, run, ?_, admits.inputs .clock (by decide)⟩
  rw [kind rfl]
  exact And.left

/-- A number in a sequence is pure where a hero is expected, and a sequence brings in an object where numbers
are expected. -/
theorem lower_mismatched :
    (∃ t, lower (.seq [.pure (.ofU64 5)]) (some hero) empty = .ok (.input 0) t ∧
      hero.takesObject = true ∧ t.builder.IsPure (.input 0)) ∧
    ∃ t, lower (.seq [.objectId .clock]) (some (.vector .u64)) empty = .ok (.result 0) t ∧
      (MoveType.vector .u64).takesPure = true ∧ .object .clock ∈ t.builder.keys ∧ ¬ empty.Admits [] t := by
  refine ⟨⟨_, rfl, rfl, 0, _, rfl, rfl⟩, _, rfl, rfl, List.mem_singleton.mpr rfl, ?_⟩
  intro admits
  cases admits.slots .clock List.not_mem_nil

end Draft

end MoveTx
