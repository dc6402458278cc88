import MoveTx.Proofs.Builder.Run

/-!
# Slots of objects

What a builder holds of an object can be told from its id alone, since no two inputs are about the same
object. `Builder.Puts` says that the slot of one object is new and those of all others are as before.
-/

namespace MoveTx
open Step

/-- The slot once the reference of its object is supplied. What was marked for receiving stays so. -/
def InputSlot.filled (slot : InputSlot) (arg : ObjectArg) : InputSlot :=
  match slot with
  | .unresolved _ true => .resolved (.object (Builder.received arg))
  | _ => .resolved (.object arg)

/-- The same slot, or the slot once it is marked for receiving. -/
inductive InputSlot.Marked : InputSlot → InputSlot → Prop
  | same (slot : InputSlot) : Marked slot slot
  | unresolved (id : Address) (receiving : Bool) :
      Marked (.unresolved id receiving) (.unresolved id true)
  | owned (r : ObjectRef) :
      Marked (.resolved (.object (.owned r))) (.resolved (.object (.receiving r)))

/-- The object that a slot is about, if it is about one. -/
def InputSlot.objectId? : InputSlot → Option Address
  | .unresolved id _ => some id
  | .resolved arg => arg.objectId?

/-- The id of the object, if its reference is not known. -/
def InputSlot.missing? : InputSlot → Option Address
  | .unresolved id _ => some id
  | .resolved _ => none

namespace Builder

variable {b c : Builder} {id : Address} {slot : InputSlot}

/-- The slot of an object. -/
def slotOf? (b : Builder) (id : Address) : Option InputSlot :=
  b.inputs.lookup (.object id)

theorem mem_of_slotOf? (held : b.slotOf? id = some slot) : (.object id, slot) ∈ b.inputs := by
  obtain ⟨before, rest, same, -⟩ := List.lookup_eq_some_iff.mp held
  rw [same]
  exact List.mem_append_right before List.mem_cons_self

theorem slotOf?_eq_none : b.slotOf? id = none ↔ .object id ∉ b.keys := by
  unfold slotOf? keys
  rw [List.lookup_eq_none_iff]
  simp only [List.mem_map, bne_iff_ne, ne_eq]
  constructor
  · rintro absent ⟨entry, inside, same⟩
    exact absent entry inside same.symm
  · exact fun absent entry inside same => absent ⟨entry, inside, same.symm⟩

theorem slotOf?_eq_some (distinct : b.keys.Nodup) :
    b.slotOf? id = some slot ↔ (.object id, slot) ∈ b.inputs := by
  constructor
  · exact mem_of_slotOf?
  · intro inside
    cases held : b.slotOf? id with
    | none => exact absurd (List.mem_map_of_mem inside) (slotOf?_eq_none.mp held)
    | some other =>
      have same := List.inj_on_of_nodup_map distinct (mem_of_slotOf? held) inside rfl
      rw [(Prod.mk.inj same).2]

theorem slotOf?_of_place (h : b.WellFormed) {i : Nat} (place : b.slots[i]? = some slot)
    (about : slot.objectId? = some id) : b.keys[i]? = some (.object id) ∧ b.slotOf? id = some slot := by
  obtain ⟨key, entry⟩ := slots_get.mp place
  have holds := h.slots_hold _ (List.mem_of_getElem? entry)
  have same : key = .object id := by
    cases holds with
    | unresolved | object => rw [Option.some.inj about]
    | pure | unique => cases about
  subst same
  exact ⟨keys_get.mpr ⟨slot, entry⟩, (slotOf?_eq_some h.keys_nodup).mpr (List.mem_of_getElem? entry)⟩

theorem slots_get_of_slotOf? (distinct : b.keys.Nodup) {i : Nat}
    (place : b.keys[i]? = some (.object id)) (held : b.slotOf? id = some slot) :
    b.slots[i]? = some slot := by
  obtain ⟨there, entry⟩ := keys_get.mp place
  have same := (slotOf?_eq_some distinct).mpr (List.mem_of_getElem? entry)
  obtain rfl := Option.some.inj (held.symm.trans same)
  exact slots_get.mpr ⟨_, entry⟩

/-- The slot of one object is this now, and those of all others are as they were. -/
def Puts (b : Builder) (id : Address) (slot : InputSlot) (c : Builder) : Prop :=
  ∀ other, c.slotOf? other = if other = id then some slot else b.slotOf? other

theorem Puts.here (puts : b.Puts id slot c) : c.slotOf? id = some slot := by
  rw [puts id, if_pos rfl]

theorem Puts.other (puts : b.Puts id slot c) {other : Address} (differs : other ≠ id) :
    c.slotOf? other = b.slotOf? other := by
  rw [puts other, if_neg differs]

theorem puts_setSlot (distinct : b.keys.Nodup) {i : Nat} (place : b.keys[i]? = some (.object id))
    (slot : InputSlot) : b.Puts id slot (b.setSlot i slot) := by
  have distinct' : (b.setSlot i slot).keys.Nodup := by
    rw [keys_setSlot]
    exact distinct
  intro other
  by_cases same : other = id
  · subst same
    obtain ⟨old, entry⟩ := keys_get.mp place
    rw [if_pos rfl, slotOf?_eq_some distinct']
    apply List.mem_of_getElem? (i := i)
    rw [setSlot_get, entry, Option.map_some, if_pos rfl]
  · rw [if_neg same]
    -- The entry of another object is at another place.
    apply Option.ext
    intro held
    rw [slotOf?_eq_some distinct', slotOf?_eq_some distinct, List.mem_iff_getElem?,
      List.mem_iff_getElem?]
    apply exists_congr
    intro j
    rw [setSlot_get]
    cases entry : b.inputs[j]? with
    | none => rfl
    | some there =>
      rw [Option.map_some]
      by_cases at_place : i = j
      · subst at_place
        obtain ⟨old, entry'⟩ := keys_get.mp place
        obtain rfl := Option.some.inj (entry.symm.trans entry')
        simp [Ne.symm same]
      · rw [if_neg at_place]

theorem puts_add (fresh : .object id ∉ b.keys) (slot : InputSlot) :
    b.Puts id slot { b with inputs := b.inputs ++ [(.object id, slot)] } := by
  intro other
  have appended : slotOf? { b with inputs := b.inputs ++ [(.object id, slot)] } other =
      (b.slotOf? other).or ([(InputKey.object id, slot)].lookup (.object other)) :=
    List.lookup_append
  rw [appended]
  by_cases same : other = id
  · subst same
    rw [slotOf?_eq_none.mpr fresh, if_pos rfl]
    simp
  · have differs : (InputKey.object other == .object id) = false := by simpa using same
    rw [if_neg same, List.lookup_cons, differs]
    exact Option.or_none

theorem puts_same (held : b.slotOf? id = some slot) (inputs : c.inputs = b.inputs) :
    b.Puts id slot c := by
  intro other
  have same : c.slotOf? other = b.slotOf? other := congrArg (List.lookup _) inputs
  rw [same]
  split
  · rename_i here
    rw [here, held]
  · rfl

/-- What is there already keeps its slot. -/
theorem insert_puts {a : Argument} (run : insert (.object id) slot b = .ok a c) :
    b.Puts id ((b.slotOf? id).getD slot) c := by
  rcases insert_cases (.object id) slot b with ⟨i, found, ended⟩ | ⟨_, _, ended⟩ | ⟨fresh, _, ended⟩
  · obtain ⟨-, rfl⟩ := EStateM.Result.ok.inj (ended.symm.trans run)
    have place : InputKey.object id ∈ b.keys := List.mem_of_getElem? (keys_of_indexOf? found)
    cases held : b.slotOf? id with
    | none => exact absurd place (slotOf?_eq_none.mp held)
    | some old => exact puts_same held rfl
  · cases ended.symm.trans run
  · obtain ⟨-, rfl⟩ := EStateM.Result.ok.inj (ended.symm.trans run)
    have absent := indexOf?_eq_none.mp fresh
    rw [slotOf?_eq_none.mpr absent]
    exact puts_add absent slot

theorem objectId_puts {a : Argument} (run : objectId id b = .ok a c) :
    b.Puts id ((b.slotOf? id).getD (.unresolved id false)) c := by
  obtain ⟨_, ready, used, run⟩ := bind_ok_iff.mp (open_ok run)
  cases used
  have puts := insert_puts run
  exact puts

/-- An object that is admitted by its reference is a new input, or its slot is merged with the reference. -/
theorem object_ok {arg : ObjectArg} {a : Argument} (run : object arg b = .ok a c) :
    (.object arg.id ∉ b.keys ∧
      insert (.object arg.id) (.resolved (.object arg))
        { b with objectsInUse := Address.insert arg.id b.objectsInUse } = .ok a c) ∨
      ∃ i old merged, b.inputs[i]? = some (.object arg.id, old) ∧ mergeObject old arg = .ok merged ∧
        c = b.setSlot i merged := by
  have run := open_ok run
  rw [get_bind] at run
  cases found : b.indexOf? (.object arg.id) with
  | none =>
    simp only [found] at run
    obtain ⟨_, ready, used, run⟩ := bind_ok_iff.mp run
    cases used
    exact Or.inl ⟨indexOf?_eq_none.mp found, run⟩
  | some i =>
    obtain ⟨old, entry⟩ := keys_get.mp (keys_of_indexOf? found)
    simp only [found, entry] at run
    cases merge : mergeObject old arg with
    | error e =>
      simp only [merge] at run
      cases run
    | ok merged =>
      simp only [merge] at run
      cases run
      exact Or.inr ⟨i, old, merged, entry, merge, rfl⟩

theorem object_puts (h : b.WellFormed) {arg : ObjectArg} {a : Argument} (run : object arg b = .ok a c) :
    (b.slotOf? arg.id = none ∧ b.Puts arg.id (.resolved (.object arg)) c) ∨
      ∃ old merged, b.slotOf? arg.id = some old ∧ mergeObject old arg = .ok merged ∧
        b.Puts arg.id merged c := by
  rcases object_ok run with ⟨fresh, run⟩ | ⟨i, old, merged, entry, merge, rfl⟩
  · have absent := slotOf?_eq_none.mpr fresh
    have puts := insert_puts run
    change b.Puts arg.id ((b.slotOf? arg.id).getD (.resolved (.object arg))) c at puts
    rw [absent] at puts
    exact Or.inl ⟨absent, puts⟩
  · have held := (slotOf?_eq_some h.keys_nodup).mpr (List.mem_of_getElem? entry)
    exact Or.inr ⟨old, merged, held, merge,
      puts_setSlot h.keys_nodup (keys_get.mpr ⟨old, entry⟩) merged⟩

/-- A supplied reference fills the slot of its object. -/
theorem resolve_puts (h : b.WellFormed) {arg : ObjectArg} (run : resolve arg b = .ok () c) :
    c.keys = b.keys ∧ c.commands = b.commands ∧
      ∃ slot, b.slotOf? arg.id = some slot ∧ b.Puts arg.id (slot.filled arg) c := by
  have run := open_ok run
  rw [get_bind] at run
  cases found : b.indexOf? (.object arg.id) with
  | none =>
    simp only [found] at run
    cases run
  | some i =>
    have place := keys_of_indexOf? found
    obtain ⟨slot, entry⟩ := keys_get.mp place
    have here : b.slots[i]? = some slot := slots_get.mpr ⟨_, entry⟩
    have filled : c = b.setSlot i (slot.filled arg) := by
      simp only [found, here] at run
      cases slot with
      | resolved held =>
        cases run
        rfl
      | unresolved id receiving =>
        cases receiving <;> (cases run; rfl)
    subst filled
    exact ⟨keys_setSlot _ _ _, rfl, slot, (slotOf?_eq_some h.keys_nodup).mpr
      (List.mem_of_getElem? entry), puts_setSlot h.keys_nodup place _⟩

/-! ### Slots that are marked -/

/-- Every object has its slot as before, or has it marked for receiving. -/
def Marks (b c : Builder) : Prop :=
  ∀ id, Option.Rel InputSlot.Marked (b.slotOf? id) (c.slotOf? id)

theorem marks_of_slotOf? (same : ∀ id, c.slotOf? id = b.slotOf? id) : b.Marks c := by
  intro id
  rw [same id]
  cases b.slotOf? id with
  | none => exact .none
  | some slot => exact .some (.same slot)

theorem marks_of_inputs (same : c.inputs = b.inputs) : b.Marks c :=
  marks_of_slotOf? fun _ => congrArg (List.lookup _) same

/-- An input that is no object leaves the slots of objects alone. -/
theorem insert_slotOf? {key : InputKey} (other : ∀ id, key ≠ .object id) (slot : InputSlot) (b : Builder)
    (id : Address) : (after (insert key slot b)).slotOf? id = b.slotOf? id := by
  rcases insert_cases key slot b with ⟨_, _, ended⟩ | ⟨_, _, ended⟩ | ⟨_, _, ended⟩
  · rw [ended]
    rfl
  · rw [ended]
    rfl
  · rw [ended]
    have differs : (InputKey.object id == key) = false := beq_eq_false_iff_ne.mpr (other id).symm
    change (b.inputs ++ [(key, slot)]).lookup (.object id) = b.slotOf? id
    rw [List.lookup_append, List.lookup_cons, differs]
    exact Option.or_none

theorem insert_marks {key : InputKey} (other : ∀ id, key ≠ .object id) (slot : InputSlot) (b : Builder) :
    b.Marks (after (insert key slot b)) :=
  marks_of_slotOf? (insert_slotOf? other slot b)

theorem open_marks {α : Type} {x : BuilderStep α} (marks : b.Marks (after (x b))) :
    b.Marks (after ((ensureOpen >>= fun _ => x) b)) := by
  cases closed : b.finalized with
  | true =>
    rw [closed_run closed]
    exact marks_of_inputs rfl
  | false =>
    rw [open_run closed]
    exact marks

theorem markReceiving_marks (h : b.WellFormed) (arg : Argument) :
    b.Marks (after (markReceiving arg b)) := by
  apply open_marks
  rw [get_bind]
  cases arg with
  | gasCoin | result | nestedResult => exact marks_of_inputs rfl
  | input index =>
    -- Whatever stands at the place is marked in place.
    have marked : ∀ old new key, b.inputs[index.toNat]? = some (.object key, old) → old.Marked new →
        b.Marks (b.setSlot index.toNat new) := by
      intro old new key entry mark id
      have puts := puts_setSlot h.keys_nodup (keys_get.mpr ⟨old, entry⟩) new
      by_cases same : id = key
      · subst same
        rw [puts.here, (slotOf?_eq_some h.keys_nodup).mpr (List.mem_of_getElem? entry)]
        exact .some mark
      · rw [puts.other same]
        exact marks_of_inputs rfl id
    simp only
    cases here : b.slots[index.toNat]? with
    | none => exact marks_of_inputs rfl
    | some slot =>
      obtain ⟨key, entry⟩ := slots_get.mp here
      have holds := h.slots_hold _ (List.mem_of_getElem? entry)
      cases holds with
      | unresolved id receiving => exact marked _ _ _ entry (.unresolved id receiving)
      | object held =>
        cases held with
        | owned r => exact marked _ _ _ entry (.owned r)
        | shared | receiving => exact marks_of_inputs rfl
      | pure | unique => exact marks_of_inputs rfl

/-! ### Objects that lack their reference -/

theorem unresolvedIds_eq (b : Builder) : b.unresolvedIds = b.slots.filterMap InputSlot.missing? :=
  rfl

/-- Where the object of a slot is asked for, when all that lack their reference are. -/
def requestIndex (b : Builder) (i : Nat) : Nat :=
  ((b.slots.take i).filterMap InputSlot.missing?).length

theorem unresolvedIds_get {i : Nat} {receiving : Bool}
    (place : b.slots[i]? = some (.unresolved id receiving)) :
    b.unresolvedIds[b.requestIndex i]? = some id := by
  obtain ⟨inside, here⟩ := List.getElem?_eq_some_iff.mp place
  have parts : b.slots = b.slots.take i ++ .unresolved id receiving :: b.slots.drop (i + 1) := by
    rw [← here, List.getElem_cons_drop, List.take_append_drop]
  have asked : b.unresolvedIds = (b.slots.take i).filterMap InputSlot.missing? ++
      id :: (b.slots.drop (i + 1)).filterMap InputSlot.missing? := by
    conv_lhs => rw [unresolvedIds_eq, parts, List.filterMap_append]
    rfl
  rw [asked, requestIndex, List.getElem?_append_right (Nat.le_refl _), Nat.sub_self]
  rfl

theorem mem_unresolvedIds (h : b.WellFormed) :
    id ∈ b.unresolvedIds ↔ ∃ receiving, b.slotOf? id = some (.unresolved id receiving) := by
  rw [unresolvedIds_eq, List.mem_filterMap]
  constructor
  · rintro ⟨slot, inside, lacks⟩
    obtain ⟨⟨key, _⟩, entry, rfl⟩ := List.mem_map.mp inside
    have holds := h.slots_hold _ entry
    cases holds with
    | unresolved other receiving =>
      obtain rfl := Option.some.inj lacks
      exact ⟨receiving, (slotOf?_eq_some h.keys_nodup).mpr entry⟩
    | object | pure | unique => cases lacks
  · rintro ⟨receiving, held⟩
    exact ⟨_, List.mem_map_of_mem (mem_of_slotOf? held), rfl⟩

/-- No object is asked for twice. -/
theorem unresolvedIds_nodup (h : b.WellFormed) : b.unresolvedIds.Nodup := by
  have among : ∀ entries : List (InputKey × InputSlot), (∀ e ∈ entries, e.1.Holds e.2) →
      List.Sublist (((entries.map (·.2)).filterMap InputSlot.missing?).map .object) (entries.map (·.1)) := by
    intro entries holds
    induction entries with
    | nil => exact List.Sublist.slnil
    | cons entry rest ih =>
      have rest := ih fun e inside => holds e (List.mem_cons_of_mem _ inside)
      obtain ⟨key, slot⟩ := entry
      have here := holds _ List.mem_cons_self
      cases here with
      | unresolved id receiving => exact rest.cons_cons _
      | object | pure | unique => exact rest.cons _
  have keys := (among b.inputs h.slots_hold).nodup h.keys_nodup
  exact keys.of_map

end Builder

/-- Operations that name no object change no slot of one, but may mark it. -/
theorem BuilderOp.plain_marks {op : BuilderOp} {b : Builder} (h : b.WellFormed) (plain : op.Plain) :
    b.Marks (op.next b) := by
  have admits : ∀ (value : PureBytes), b.Marks (after (Builder.pureBytes value b)) := by
    intro value
    apply Builder.open_marks
    apply Builder.insert_marks
    intro id same
    cases same
  have appends : ∀ c, b.Marks (after (Builder.command c b)) := by
    intro c
    rcases Builder.command_cases c b with ⟨e, ended⟩ | ⟨_, ended⟩
    · rw [ended]
      exact Builder.marks_of_inputs rfl
    · rw [ended]
      exact Builder.marks_of_inputs rfl
  unfold next
  cases op with
  | pure value =>
    rw [step, after_map]
    exact admits value.encoded
  | pureBytes value =>
    rw [step, after_map]
    exact admits value
  | uniquePure value =>
    rw [step, after_map]
    apply Builder.open_marks
    have fresh : ∀ id, InputKey.unique b.nonce ≠ .object id := by
      intro id same
      cases same
    exact Builder.insert_marks fresh _ { b with nonce := b.nonce + 1 }
  | markReceiving arg =>
    rw [step, after_map]
    exact Builder.markReceiving_marks h arg
  | command c =>
    rw [step, after_map]
    exact appends c
  | moveCall package module function typeArguments arguments =>
    rw [step, after_map]
    exact appends _
  | makeMoveVec elementType elements =>
    rw [step, after_map]
    unfold Builder.makeMoveVec
    split
    · exact Builder.marks_of_inputs rfl
    · exact appends _
  | inspect =>
    rw [step, get_bind]
    cases b.inspect with
    | ok kind => exact Builder.marks_of_inputs rfl
    | error e => exact Builder.marks_of_inputs rfl
  | object | objectId | resolve | finalize => exact plain.elim

end MoveTx
