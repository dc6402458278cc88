import MoveTx.Proofs.Builder.Finish
import MoveTx.Proofs.Builder.Gain

/-!
# Objects that may only be read

The clock, the source of randomness and the deny list belong to everybody, and no transaction may take
them mutably. A builder takes one of them mutably only if an operation brings a reference that does:
admitting an object again makes it mutable when either reference is, so none may be.
-/

namespace MoveTx
open Step

/-- The reference takes an object mutably that may only be read. -/
inductive ObjectArg.Trespasses : ObjectArg → Prop
  | clock (initialVersion : UInt64) : Trespasses (.shared ⟨.clock, initialVersion, true⟩)
  | random (initialVersion : UInt64) : Trespasses (.shared ⟨.random, initialVersion, true⟩)
  | denyList (initialVersion : UInt64) : Trespasses (.shared ⟨.denyList, initialVersion, true⟩)

def CallArg.Trespasses (input : CallArg) : Prop :=
  ∃ arg, input = .object arg ∧ arg.Trespasses

def InputSlot.Trespasses (slot : InputSlot) : Prop :=
  ∃ input, slot = .resolved input ∧ input.Trespasses

namespace ObjectArg

theorem trespasses_shared {r : SharedRef} :
    (shared r).Trespasses ↔ r.isMutable = true ∧ r.id.isAlwaysImmutable = true := by
  have among : r.id.isAlwaysImmutable = true ↔ r.id = .clock ∨ r.id = .random ∨ r.id = .denyList := by
    unfold Address.isAlwaysImmutable
    rw [Bool.or_eq_true, Bool.or_eq_true, beq_iff_eq, beq_iff_eq, beq_iff_eq, or_assoc]
  rw [among]
  constructor
  · intro trespasses
    cases trespasses with
    | clock => exact ⟨rfl, Or.inl rfl⟩
    | random => exact ⟨rfl, Or.inr (Or.inl rfl)⟩
    | denyList => exact ⟨rfl, Or.inr (Or.inr rfl)⟩
  · obtain ⟨id, initialVersion, isMutable⟩ := r
    rintro ⟨rfl, rfl | rfl | rfl⟩
    · exact .clock initialVersion
    · exact .random initialVersion
    · exact .denyList initialVersion

theorem trespasses_received {arg : ObjectArg} (trespasses : (Builder.received arg).Trespasses) :
    arg.Trespasses := by
  cases arg with
  | owned r => cases trespasses
  | shared r | receiving r => exact trespasses

end ObjectArg

namespace InputSlot

variable {slot slot' : InputSlot} {arg : ObjectArg}

theorem trespasses_resolved : (resolved (.object arg)).Trespasses ↔ arg.Trespasses := by
  constructor
  · rintro ⟨input, same, arg', rfl, trespasses⟩
    obtain rfl := CallArg.object.inj (resolved.inj same)
    exact trespasses
  · exact fun trespasses => ⟨_, rfl, arg, rfl, trespasses⟩

theorem not_trespasses_unresolved (id : Address) (receiving : Bool) :
    ¬ (unresolved id receiving).Trespasses := by
  rintro ⟨input, other, -⟩
  cases other

/-- The slot of a trespass tells whose object it is. -/
theorem Trespasses.objectId (trespasses : slot.Trespasses) : ∃ id, slot.objectId? = some id := by
  obtain ⟨_, rfl, arg, rfl, -⟩ := trespasses
  exact ⟨arg.id, rfl⟩

theorem Marked.trespasses (marked : slot.Marked slot') (trespasses : slot'.Trespasses) :
    slot.Trespasses := by
  cases marked with
  | same => exact trespasses
  | unresolved id receiving => exact (not_trespasses_unresolved _ _ trespasses).elim
  | owned r => cases trespasses_resolved.mp trespasses

theorem trespasses_filled (trespasses : (slot.filled arg).Trespasses) : arg.Trespasses := by
  unfold filled at trespasses
  split at trespasses
  · exact ObjectArg.trespasses_received (trespasses_resolved.mp trespasses)
  · exact trespasses_resolved.mp trespasses

/-- Two references are merged into one that trespasses only if one of them does. -/
theorem trespasses_merged (holds : (InputKey.object arg.id).Holds slot)
    (merge : Builder.mergeObject slot arg = .ok slot') (trespasses : slot'.Trespasses) :
    slot.Trespasses ∨ arg.Trespasses := by
  unfold Builder.mergeObject at merge
  generalize same : arg.id = id at holds
  cases holds with
  | unresolved id receiving =>
    obtain rfl := Except.ok.inj merge
    have trespasses := trespasses_resolved.mp trespasses
    cases receiving with
    | false => exact Or.inr trespasses
    | true => exact Or.inr (ObjectArg.trespasses_received trespasses)
  | object held =>
    simp only at merge
    split at merge
    · rename_i a b
      split at merge
      · obtain rfl := Except.ok.inj merge
        obtain ⟨isMutable, readOnly⟩ :=
          ObjectArg.trespasses_shared.mp (trespasses_resolved.mp trespasses)
        -- Both references are about the object under the key.
        change b.id = a.id at same
        rcases (Bool.or_eq_true _ _).mp isMutable with before | now
        · exact Or.inl (trespasses_resolved.mpr (ObjectArg.trespasses_shared.mpr ⟨before, readOnly⟩))
        · exact Or.inr (ObjectArg.trespasses_shared.mpr ⟨now, same ▸ readOnly⟩)
      · cases merge
    · split at merge
      · obtain rfl := Except.ok.inj merge
        exact Or.inl trespasses
      · cases merge
    · split at merge
      · obtain rfl := Except.ok.inj merge
        exact Or.inl trespasses
      · cases merge

end InputSlot

/-- An operation that brings no reference which trespasses. Most bring no reference at all. -/
def BuilderOp.Respects : BuilderOp → Prop
  | object arg | resolve arg => ¬ arg.Trespasses
  | _ => True

/-- A step that is made of operations which bring no reference that trespasses. -/
def BuilderStep.Respects {α : Type} (x : BuilderStep α) : Prop :=
  ∀ b a t, x b = .ok a t →
    ∃ ops : List BuilderOp, (∀ op ∈ ops, op.Respects) ∧ t = ops.foldl (fun b op => op.next b) b

/-- A builder that takes no object mutably which may only be read. -/
structure Builder.Respectful (b : Builder) : Prop where
  wellFormed : b.WellFormed
  slots : ∀ slot ∈ b.slots, ¬ slot.Trespasses

namespace Builder

variable {b c : Builder}

theorem respectful_empty : empty.Respectful :=
  ⟨wellFormed_empty, nofun⟩

/-- It is enough to look at the slots of objects. -/
theorem respectful_iff (h : b.WellFormed) :
    b.Respectful ↔ ∀ id slot, b.slotOf? id = some slot → ¬ slot.Trespasses := by
  constructor
  · intro respectful id slot held
    exact respectful.slots slot (List.mem_map_of_mem (mem_of_slotOf? held))
  · refine fun objects => ⟨h, ?_⟩
    intro slot inside trespasses
    obtain ⟨i, place⟩ := List.mem_iff_getElem?.mp inside
    obtain ⟨id, about⟩ := trespasses.objectId
    exact objects id slot (slotOf?_of_place h place about).2 trespasses

theorem Respectful.slotOf (respectful : b.Respectful) {id : Address} {slot : InputSlot}
    (held : b.slotOf? id = some slot) : ¬ slot.Trespasses :=
  (respectful_iff respectful.wellFormed).mp respectful id slot held

theorem Respectful.puts (respectful : b.Respectful) (h : c.WellFormed) {id : Address}
    {slot : InputSlot} (puts : b.Puts id slot c) (new : ¬ slot.Trespasses) : c.Respectful := by
  refine (respectful_iff h).mpr ?_
  intro other found held
  by_cases same : other = id
  · subst same
    obtain rfl := Option.some.inj (puts.here.symm.trans held)
    exact new
  · exact respectful.slotOf ((puts.other same).symm.trans held)

theorem Respectful.marks (respectful : b.Respectful) (h : c.WellFormed) (marks : b.Marks c) :
    c.Respectful := by
  refine (respectful_iff h).mpr ?_
  intro id slot' held trespasses
  have related := marks id
  rw [held] at related
  generalize before : b.slotOf? id = found at related
  cases related with
  | some marked => exact respectful.slotOf before (marked.trespasses trespasses)

theorem Respectful.of_inputs (respectful : b.Respectful) (h : c.WellFormed)
    (inputs : c.inputs = b.inputs) : c.Respectful :=
  respectful.marks h (marks_of_inputs inputs)

end Builder

namespace BuilderOp

variable {b : Builder}

theorem next_respectful {op : BuilderOp} (respects : op.Respects) (respectful : b.Respectful) :
    (op.next b).Respectful := by
  have h := respectful.wellFormed
  have h' := (next_keeps h op).1
  by_cases plain : op.Plain
  · exact respectful.marks h' (plain_marks h plain)
  cases run : op.step b with
  | error e t =>
    refine respectful.of_inputs h' ?_
    unfold next
    rw [run]
    exact inputs_of_error h run
  | ok answer t =>
    have next : op.next b = t := congrArg after run
    rw [next] at h' ⊢
    cases op with
    | objectId id =>
      obtain ⟨a, admitted, -⟩ := map_ok_iff.mp run
      refine respectful.puts h' (Builder.objectId_puts admitted) ?_
      cases held : b.slotOf? id with
      | none => exact InputSlot.not_trespasses_unresolved id false
      | some slot => exact respectful.slotOf held
    | object arg =>
      obtain ⟨a, admitted, -⟩ := map_ok_iff.mp run
      rcases Builder.object_puts h admitted with ⟨-, puts⟩ | ⟨old, merged, there, merge, puts⟩
      · exact respectful.puts h' puts (InputSlot.trespasses_resolved.not.mpr respects)
      · refine respectful.puts h' puts ?_
        intro trespasses
        have holds := h.slots_hold _ (Builder.mem_of_slotOf? there)
        rcases InputSlot.trespasses_merged holds merge trespasses with before | now
        · exact respectful.slotOf there before
        · exact respects now
    | resolve arg =>
      obtain ⟨_, supplied, -⟩ := map_ok_iff.mp run
      obtain ⟨-, -, slot, -, puts⟩ := Builder.resolve_puts h supplied
      exact respectful.puts h' puts (mt InputSlot.trespasses_filled respects)
    | finalize =>
      obtain ⟨taken, closes, -⟩ := map_ok_iff.mp run
      rcases Builder.finalize_cases b with ⟨e, failed⟩ | ⟨_, -, -, -, closed⟩
      · cases failed.symm.trans closes
      · cases closed.symm.trans closes
        exact respectful.of_inputs h' rfl
    | _ => exact absurd trivial plain

theorem foldl_respectful (ops : List BuilderOp) (respect : ∀ op ∈ ops, op.Respects)
    (respectful : b.Respectful) : (ops.foldl (fun b op => op.next b) b).Respectful := by
  induction ops generalizing b with
  | nil => exact respectful
  | cons op rest ih =>
    obtain ⟨first, others⟩ := List.forall_mem_cons.mp respect
    exact ih others (next_respectful first respectful)

end BuilderOp

/-- The inputs of a snapshot are those of the slots. -/
theorem Builder.Respectful.snapshot {b : Builder} (respectful : b.Respectful)
    {t : ProgrammableTransaction} (taken : b.snapshot = .ok t) :
    ∀ input ∈ t.inputs, ¬ input.Trespasses := by
  intro input inside trespasses
  have slot : InputSlot.resolved input ∈ b.slots := by
    rw [(Builder.snapshot_ok taken).1]
    exact List.mem_map_of_mem inside
  exact respectful.slots _ slot ⟨input, rfl, trespasses⟩

end MoveTx
