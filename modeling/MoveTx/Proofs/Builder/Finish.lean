import MoveTx.Proofs.Builder.Operation

/-!
# The finished transaction of a builder

A snapshot has the inputs and commands of its builder, one for one. The objects among its inputs are in
use.
-/

namespace MoveTx.Builder
open Step

theorem slotArg_ok_iff {slot : InputSlot} {arg : CallArg} :
    slotArg slot = .ok arg ↔ slot = .resolved arg := by
  cases slot with
  | unresolved id receiving => simp [slotArg]
  | resolved held => simp [slotArg]

theorem slots_of_map_slotArg {slots : List InputSlot} {args : List CallArg}
    (all : slots.map slotArg = args.map Except.ok) : slots = args.map InputSlot.resolved := by
  induction slots generalizing args with
  | nil =>
    cases args with
    | nil => rfl
    | cons arg args => cases all
  | cons slot rest ih =>
    cases args with
    | nil => cases all
    | cons arg args =>
      obtain ⟨head, tail⟩ := List.cons.inj all
      rw [slotArg_ok_iff.mp head, ih tail]
      rfl

theorem snapshot_ok_iff {b : Builder} {t : ProgrammableTransaction} :
    b.snapshot = .ok t ↔ b.slots = t.inputs.map InputSlot.resolved ∧ t.commands = b.commands := by
  have run : b.snapshot = (b.slots.mapM slotArg >>= fun inputs => .ok ⟨inputs, b.commands⟩) := rfl
  rw [run, except_bind_ok_iff]
  constructor
  · rintro ⟨inputs, resolved, same⟩
    obtain rfl := Except.ok.inj same
    exact ⟨slots_of_map_slotArg (mapM_ok_iff.mp resolved), rfl⟩
  · rintro ⟨slots, commands⟩
    refine ⟨t.inputs, mapM_ok_iff.mpr ?_, ?_⟩
    · rw [slots, List.map_map]
      rfl
    · rw [← commands]

theorem snapshot_ok {b : Builder} {t : ProgrammableTransaction} (taken : b.snapshot = .ok t) :
    b.slots = t.inputs.map InputSlot.resolved ∧ t.commands = b.commands :=
  snapshot_ok_iff.mp taken

theorem snapshot_inputs_length {b : Builder} {t : ProgrammableTransaction}
    (taken : b.snapshot = .ok t) : t.inputs.length = b.inputs.length := by
  have slots := congrArg List.length (snapshot_ok taken).1
  rw [Builder.slots, List.length_map, List.length_map] at slots
  exact slots.symm

theorem unresolvedIds_eq_nil {b : Builder} :
    b.unresolvedIds = [] ↔ ∃ args : List CallArg, b.slots = args.map InputSlot.resolved := by
  unfold unresolvedIds
  generalize b.slots = slots
  constructor
  · intro none
    induction slots with
    | nil => exact ⟨[], rfl⟩
    | cons slot rest ih =>
      cases slot with
      | unresolved id receiving => cases none
      | resolved arg =>
        obtain ⟨args, rfl⟩ := ih none
        exact ⟨arg :: args, rfl⟩
  · rintro ⟨args, rfl⟩
    simp [List.filterMap_map]

/-- A snapshot can be taken when no object lacks its reference. -/
theorem exists_snapshot_iff {b : Builder} : (∃ t, b.snapshot = .ok t) ↔ b.unresolvedIds = [] := by
  rw [unresolvedIds_eq_nil]
  constructor
  · rintro ⟨t, taken⟩
    exact ⟨t.inputs, (snapshot_ok taken).1⟩
  · rintro ⟨args, slots⟩
    exact ⟨⟨args, b.commands⟩, snapshot_ok_iff.mpr ⟨slots, rfl⟩⟩

theorem snapshot_error {b : Builder} {e : BuilderError} (failed : b.snapshot = .error e) :
    ∃ id, e = .unresolvedObject id := by
  have run : b.snapshot = (b.slots.mapM slotArg >>= fun inputs => .ok ⟨inputs, b.commands⟩) := rfl
  rw [run] at failed
  rcases except_bind_error_iff.mp failed with lacks | ⟨inputs, -, done⟩
  · obtain ⟨slot, -, refused⟩ := mapM_error lacks
    cases slot with
    | resolved arg => cases refused
    | unresolved id receiving => exact ⟨id, (Except.error.inj refused).symm⟩
  · cases done

/-- Gas must not be paid with an object that the transaction takes as an input. -/
theorem input_in_use {b : Builder} (h : b.WellFormed) {t : ProgrammableTransaction}
    (taken : b.snapshot = .ok t) {arg : CallArg} (inside : arg ∈ t.inputs) {id : Address}
    (names : arg.objectId? = some id) : id ∈ b.objectsInUse := by
  have slot : InputSlot.resolved arg ∈ b.slots := by
    rw [(snapshot_ok taken).1]
    exact List.mem_map_of_mem inside
  obtain ⟨⟨key, _⟩, entry, rfl⟩ := List.mem_map.mp slot
  have holds := h.slots_hold _ entry
  apply h.objects_used
  have same : key = .object id := by
    cases holds with
    | object arg => exact congrArg InputKey.object (Option.some.inj names)
    | pure | unique => cases names
  rw [← same]
  exact List.mem_map_of_mem entry

end MoveTx.Builder
