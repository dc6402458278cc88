import MoveTx.Proofs.Builder.Slot

/-!
# Slots that gain

Admitting an object again and marking it for receiving only add to what its slot tells, with one
exception: a shared reference takes the place of a mark. Supplying a reference writes over whatever the
slot held, unless it was waiting for one. So a slot gains along every run up to the operations that
replace it.
-/

namespace MoveTx
open Step

/-- What a slot becomes when knowledge of its object is only added. A known reference stays, what is to
be received stays so, and what may be changed stays so. -/
inductive InputSlot.Gains : InputSlot → InputSlot → Prop
  | same (slot : InputSlot) : Gains slot slot
  | mark (id : Address) : Gains (.unresolved id false) (.unresolved id true)
  | supply (arg : ObjectArg) : Gains (.unresolved arg.id false) (.resolved (.object arg))
  | receive (r : ObjectRef) : Gains (.unresolved r.id true) (.resolved (.object (.receiving r)))
  | hand (r : ObjectRef) :
      Gains (.resolved (.object (.owned r))) (.resolved (.object (.receiving r)))
  | widen (r : SharedRef) :
      Gains (.resolved (.object (.shared r))) (.resolved (.object (.shared { r with isMutable := true })))

/-- The operations that put a reference into a slot whatever the slot tells. -/
inductive BuilderOp.Replaces : BuilderOp → InputSlot → ObjectArg → Prop
  | resolved (held arg : ObjectArg) (same : held.id = arg.id) :
      Replaces (.resolve arg) (.resolved (.object held)) arg
  | resolveMarked (r : SharedRef) : Replaces (.resolve (.shared r)) (.unresolved r.id true) (.shared r)
  | objectMarked (r : SharedRef) : Replaces (.object (.shared r)) (.unresolved r.id true) (.shared r)

namespace InputSlot

variable {slot slot' slot'' : InputSlot}

theorem Gains.trans (first : slot.Gains slot') (second : slot'.Gains slot'') : slot.Gains slot'' := by
  cases first with
  | same => exact second
  | mark id =>
    cases second with
    | same => exact .mark id
    | receive r => exact .supply (.receiving r)
  | receive r =>
    cases second with
    | same => exact .receive r
  | hand r =>
    cases second with
    | same => exact .hand r
  | widen r =>
    cases second with
    | same | widen => exact .widen r
  | supply arg =>
    cases second with
    | same => exact .supply arg
    | hand r => exact .supply (.receiving r)
    | widen r => exact .supply (.shared { r with isMutable := true })

theorem Marked.gains (marked : slot.Marked slot') : slot.Gains slot' := by
  cases marked with
  | same => exact .same slot
  | owned r => exact .hand r
  | unresolved id receiving =>
    cases receiving with
    | false => exact .mark id
    | true => exact .same _

end InputSlot

namespace BuilderOp

variable {b : Builder} {id : Address} {slot : InputSlot}

/-- How an operation leaves a slot, told from what it found there. -/
def Leaves (op : BuilderOp) (slot slot' : InputSlot) : Prop :=
  slot.Gains slot' ∨ ∃ arg, op.Replaces slot arg ∧ slot' = .resolved (.object arg)

theorem leaves_filled {arg : ObjectArg} (holds : (InputKey.object arg.id).Holds slot) :
    (resolve arg).Leaves slot (slot.filled arg) := by
  generalize same : arg.id = id at holds
  cases holds with
  | object held => exact Or.inr ⟨arg, .resolved held arg same.symm, rfl⟩
  | unresolved id receiving =>
    subst same
    cases receiving with
    | false => exact Or.inl (.supply arg)
    | true =>
      cases arg with
      | owned r | receiving r => exact Or.inl (.receive r)
      | shared r => exact Or.inr ⟨_, .resolveMarked r, rfl⟩

theorem leaves_merged {arg : ObjectArg} {merged : InputSlot}
    (holds : (InputKey.object arg.id).Holds slot)
    (merge : Builder.mergeObject slot arg = .ok merged) : (object arg).Leaves slot merged := by
  unfold Builder.mergeObject at merge
  generalize same : arg.id = id at holds
  cases holds with
  | unresolved id receiving =>
    subst same
    cases receiving with
    | false =>
      obtain rfl := Except.ok.inj merge
      exact Or.inl (.supply arg)
    | true =>
      obtain rfl := Except.ok.inj merge
      cases arg with
      | owned r | receiving r => exact Or.inl (.receive r)
      | shared r => exact Or.inr ⟨_, .objectMarked r, rfl⟩
  | object held =>
    refine Or.inl ?_
    simp only at merge
    split at merge
    · rename_i r incoming
      split at merge
      · obtain rfl := Except.ok.inj merge
        obtain ⟨id, version, isMutable⟩ := r
        cases isMutable with
        | true => exact .same _
        | false =>
          cases incoming.isMutable with
          | true => exact .widen _
          | false => exact .same _
      · cases merge
    · split at merge
      · obtain rfl := Except.ok.inj merge
        exact .same _
      · cases merge
    · split at merge
      · obtain rfl := Except.ok.inj merge
        exact .same _
      · cases merge

theorem inputs_of_error {op : BuilderOp} {e : BuilderError} {t : Builder} (h : b.WellFormed)
    (failed : op.step b = .error e t) : t.inputs = b.inputs := by
  have outcome := step_outcome h op
  rw [failed] at outcome
  cases outcome with
  | refused _ _ evolves inputs commands => exact inputs

theorem next_slot (h : b.WellFormed) (op : BuilderOp) (held : b.slotOf? id = some slot) :
    ∃ slot', (op.next b).slotOf? id = some slot' ∧ op.Leaves slot slot' := by
  have holds := h.slots_hold _ (Builder.mem_of_slotOf? held)
  have unchanged : ∀ t : Builder, t.slotOf? id = b.slotOf? id →
      ∃ slot', t.slotOf? id = some slot' ∧ op.Leaves slot slot' := by
    intro t same
    exact ⟨slot, same.trans held, Or.inl (.same slot)⟩
  by_cases plain : op.Plain
  · have marks := plain_marks h plain id
    rw [held] at marks
    generalize (op.next b).slotOf? id = found at marks
    cases marks with
    | some marked => exact ⟨_, rfl, Or.inl marked.gains⟩
  cases run : op.step b with
  | error e t =>
    have inputs := inputs_of_error h run
    unfold next
    rw [run]
    exact unchanged t (congrArg (List.lookup _) inputs)
  | ok answer t =>
    unfold next
    rw [run]
    change ∃ slot', t.slotOf? id = some slot' ∧ op.Leaves slot slot'
    -- An operation about another object leaves the slot of this one.
    cases op with
    | objectId other =>
      obtain ⟨a, admitted, -⟩ := map_ok_iff.mp run
      have puts := Builder.objectId_puts admitted
      by_cases same : id = other
      · subst same
        rw [held] at puts
        exact ⟨slot, puts.here, Or.inl (.same slot)⟩
      · exact unchanged t (puts.other same)
    | object arg =>
      obtain ⟨a, admitted, -⟩ := map_ok_iff.mp run
      rcases Builder.object_puts h admitted with ⟨absent, puts⟩ | ⟨old, merged, there, merge, puts⟩
      · by_cases same : id = arg.id
        · subst same
          cases absent.symm.trans held
        · exact unchanged t (puts.other same)
      · by_cases same : id = arg.id
        · subst same
          obtain rfl := Option.some.inj (there.symm.trans held)
          exact ⟨merged, puts.here, leaves_merged holds merge⟩
        · exact unchanged t (puts.other same)
    | resolve arg =>
      obtain ⟨_, supplied, -⟩ := map_ok_iff.mp run
      obtain ⟨-, -, old, there, puts⟩ := Builder.resolve_puts h supplied
      by_cases same : id = arg.id
      · subst same
        obtain rfl := Option.some.inj (there.symm.trans held)
        exact ⟨_, puts.here, leaves_filled holds⟩
      · exact unchanged t (puts.other same)
    | finalize =>
      obtain ⟨taken, closes, -⟩ := map_ok_iff.mp run
      rcases Builder.finalize_cases b with ⟨e, failed⟩ | ⟨_, -, -, -, closed⟩
      · cases failed.symm.trans closes
      · cases closed.symm.trans closes
        exact unchanged _ rfl
    | _ => exact absurd trivial plain

/-- The last operation that replaces the slot decides what it gains from. -/
theorem foldl_slot (ops : List BuilderOp) (h : b.WellFormed) (held : b.slotOf? id = some slot) :
    ∃ slot', (ops.foldl (fun b op => op.next b) b).slotOf? id = some slot' ∧
      (slot.Gains slot' ∨ ∃ earlier op rest old arg, ops = earlier ++ op :: rest ∧
        (earlier.foldl (fun b op => op.next b) b).slotOf? id = some old ∧ op.Replaces old arg ∧
          (InputSlot.resolved (.object arg)).Gains slot') := by
  induction ops generalizing b slot with
  | nil => exact ⟨slot, held, Or.inl (.same slot)⟩
  | cons first rest ih =>
    obtain ⟨now, held', leaves⟩ := next_slot h first held
    obtain ⟨slot', last, gained⟩ := ih (next_keeps h first).1 held'
    refine ⟨slot', last, ?_⟩
    rcases gained with gains | ⟨earlier, op, later, old, arg, parts, there, replaces, gains⟩
    · rcases leaves with gained | ⟨arg, replaces, rfl⟩
      · exact Or.inl (gained.trans gains)
      · exact Or.inr ⟨[], first, rest, slot, arg, rfl, held, replaces, gains⟩
    · exact Or.inr ⟨first :: earlier, op, later, old, arg, by rw [parts]; rfl, there, replaces, gains⟩

/-- Object slots gain. Along every run, the slot of an object only gains from the slot it was, or from the
reference that the last operation to replace it left. No operation replaces a slot but one that supplies
a reference where there is one already, or that brings a shared reference where the object is to be
received. -/
theorem run_slot_gains {before : List BuilderOp} (later : List BuilderOp) {i : Nat} {slot : InputSlot}
    {id : Address} (place : (run before).slots[i]? = some slot) (about : slot.objectId? = some id) :
    ∃ slot', (run (before ++ later)).slots[i]? = some slot' ∧
      (slot.Gains slot' ∨ ∃ earlier op rest old arg, later = earlier ++ op :: rest ∧
        (run (before ++ earlier)).slots[i]? = some old ∧ op.Replaces old arg ∧
          (InputSlot.resolved (.object arg)).Gains slot') := by
  have wellFormed := run_wellFormed before
  obtain ⟨key, held⟩ := Builder.slotOf?_of_place wellFormed place about
  -- A slot of this object, at any later point, is still at this place.
  have there : ∀ ops found, (run (before ++ ops)).slotOf? id = some found →
      (run (before ++ ops)).slots[i]? = some found := by
    intro ops found stays
    have key' := Builder.getElem?_of_prefix (run_extends before ops).keys key
    exact Builder.slots_get_of_slotOf? (run_wellFormed _).keys_nodup key' stays
  obtain ⟨slot', last, gained⟩ := foldl_slot later wellFormed held
  rw [← run_append] at last
  refine ⟨slot', there later slot' last, ?_⟩
  rcases gained with gains | ⟨earlier, op, rest, old, arg, parts, found, replaces, gains⟩
  · exact Or.inl gains
  · rw [← run_append] at found
    exact Or.inr ⟨earlier, op, rest, old, arg, parts, there earlier old found, replaces, gains⟩

/-- One version of an object, for runs on a single object. -/
def sampleRef : ObjectRef :=
  ⟨.suiFramework, 3, .zero⟩

/-- The object is marked while only its id is known, and then admitted by its reference. -/
theorem sampleRef_gains :
    (run [.objectId .suiFramework, .markReceiving (.input 0)]).slots[0]? =
        some (.unresolved .suiFramework true) ∧
      (run [.objectId .suiFramework, .markReceiving (.input 0), .object (.owned sampleRef)]).slots[0]? =
        some (.resolved (.object (.receiving sampleRef))) ∧
      (InputSlot.unresolved .suiFramework true).Gains
        (.resolved (.object (.receiving sampleRef))) := by
  have place : (run [.objectId .suiFramework, .markReceiving (.input 0)]).slots[0]? =
      some (.unresolved .suiFramework true) := rfl
  obtain ⟨slot', there, gained⟩ := run_slot_gains [.object (.owned sampleRef)] place rfl
  cases there
  refine ⟨place, rfl, gained.resolve_right ?_⟩
  rintro ⟨earlier, op, rest, old, arg, parts, -, replaces, -⟩
  have inside : op ∈ [BuilderOp.object (.owned sampleRef)] := by
    rw [parts]
    simp
  obtain rfl := List.mem_singleton.mp inside
  cases replaces

/-- Supplying a reference again takes the mark off an object, and may put another version in its place. -/
theorem sampleRef_replaced :
    let before : List BuilderOp := [.object (.owned sampleRef), .markReceiving (.input 0)]
    (run before).slots[0]? = some (.resolved (.object (.receiving sampleRef))) ∧
      answer (.resolve (.owned sampleRef)) (run before) = .ok .done ∧
      (run (before ++ [.resolve (.owned sampleRef)])).slots[0]? =
        some (.resolved (.object (.owned sampleRef))) ∧
      (run (before ++ [.resolve (.receiving { sampleRef with version := 4 })])).slots[0]? =
        some (.resolved (.object (.receiving { sampleRef with version := 4 }))) ∧
      ¬ (InputSlot.resolved (.object (.receiving sampleRef))).Gains
        (.resolved (.object (.owned sampleRef))) :=
  ⟨rfl, rfl, rfl, rfl, nofun⟩

end BuilderOp

end MoveTx
