import MoveTx.Proofs.Builder.Failure

/-!
# Slots that are left alone

An operation can change the slot of an object only by naming the object or the place of its input. Nothing
but the end closes a builder.
-/

namespace MoveTx
open Step

/-- The operations that may change the slot of an object. -/
def BuilderOp.Touches (b : Builder) : BuilderOp → Address → Prop
  | object arg, id | resolve arg, id => arg.id = id
  | objectId other, id => other = id
  | markReceiving (.input i), id => b.keys[i.toNat]? = some (.object id)
  | _, _ => False

namespace Builder

variable {b c : Builder} {touched : Address → Prop}

/-- No slot is different but those of the objects that were touched, nor is the builder closed. -/
structure Spares (b c : Builder) (touched : Address → Prop) : Prop where
  finalized : c.finalized = b.finalized
  slots : ∀ id, ¬ touched id → c.slotOf? id = b.slotOf? id

theorem spares_of_inputs (finalized : c.finalized = b.finalized) (inputs : c.inputs = b.inputs) :
    b.Spares c touched :=
  ⟨finalized, fun _ _ => congrArg (List.lookup _) inputs⟩

theorem spares_of_puts {id : Address} {slot : InputSlot} (finalized : c.finalized = b.finalized)
    (puts : b.Puts id slot c) (touches : touched id) : b.Spares c touched := by
  refine ⟨finalized, fun other spared => puts.other ?_⟩
  rintro rfl
  exact spared touches

theorem Spares.mono {touched' : Address → Prop} (spares : b.Spares c touched)
    (among : ∀ id, touched id → touched' id) : b.Spares c touched' :=
  ⟨spares.finalized, fun id spared => spares.slots id (mt (among id) spared)⟩

theorem insert_finalized (key : InputKey) (slot : InputSlot) (b : Builder) :
    (after (insert key slot b)).finalized = b.finalized := by
  obtain ⟨inputs, same⟩ := after_insert key slot b
  rw [same]

/-- Pure bytes are added beside the objects. -/
theorem insert_spares {key : InputKey} {slot : InputSlot} {a : Argument}
    (run : insert key slot b = .ok a c) (other : ∀ id, key ≠ .object id) : b.Spares c touched := by
  have finalized := insert_finalized key slot b
  have slots := insert_slotOf? other slot b
  rw [run] at finalized slots
  exact ⟨finalized, fun id _ => slots id⟩

theorem object_finalized {arg : ObjectArg} {a : Argument} (run : object arg b = .ok a c) :
    c.finalized = b.finalized := by
  rcases object_ok run with ⟨-, run⟩ | ⟨i, old, merged, -, -, rfl⟩
  · have finalized := insert_finalized (.object arg.id) (.resolved (.object arg))
      { b with objectsInUse := Address.insert arg.id b.objectsInUse }
    rw [run] at finalized
    exact finalized
  · rfl

theorem objectId_finalized {id : Address} {a : Argument} (run : objectId id b = .ok a c) :
    c.finalized = b.finalized := by
  obtain ⟨_, ready, used, run⟩ := bind_ok_iff.mp (open_ok run)
  have finalized := insert_finalized (.object id) (.unresolved id false) ready
  rw [run] at finalized
  cases used
  exact finalized

theorem command_spares {command : Command} {a : Argument} (run : Builder.command command b = .ok a c) :
    b.Spares c touched := by
  rcases command_cases command b with ⟨e, failed⟩ | ⟨-, appended⟩
  · cases failed.symm.trans run
  · cases appended.symm.trans run
    exact spares_of_inputs rfl rfl

end Builder

namespace BuilderOp

variable {b t : Builder} {op : BuilderOp}

theorem FailsTo.spares {touched : Address → Prop} (fails : FailsTo op b t) : b.Spares t touched := by
  cases fails with
  | same | numbered | inUse => exact Builder.spares_of_inputs rfl rfl

theorem markReceiving_spares (h : b.WellFormed) {arg : Argument}
    (run : Builder.markReceiving arg b = .ok () t) : b.Spares t ((markReceiving arg).Touches b) := by
  have run := Builder.open_ok run
  rw [get_bind] at run
  cases arg with
  | gasCoin | result | nestedResult => cases run
  | input index =>
    have marked : ∀ id old new, b.inputs[index.toNat]? = some (.object id, old) →
        b.Spares (b.setSlot index.toNat new) ((markReceiving (.input index)).Touches b) := by
      intro id old new entry
      have place := Builder.keys_get.mpr ⟨old, entry⟩
      exact Builder.spares_of_puts rfl (Builder.puts_setSlot h.keys_nodup place new) place
    cases here : b.slots[index.toNat]? with
    | none =>
      simp only [here] at run
      cases run
    | some slot =>
      obtain ⟨key, entry⟩ := Builder.slots_get.mp here
      have holds := h.slots_hold _ (List.mem_of_getElem? entry)
      simp only [here] at run
      cases holds with
      | unresolved id receiving =>
        cases run
        exact marked id _ _ entry
      | object held =>
        cases held with
        | owned r =>
          cases run
          exact marked r.id _ _ entry
        | shared r => cases run
        | receiving r =>
          cases run
          exact Builder.spares_of_inputs rfl rfl
      | pure | unique => cases run

/-- What an operation leaves alone, whether or not it fails. -/
theorem next_spares (h : b.WellFormed) (goesOn : op ≠ .finalize) :
    b.Spares (op.next b) (op.Touches b) := by
  cases run : op.step b with
  | error e t =>
    unfold next
    rw [run]
    exact (step_fails h run).spares
  | ok answer t =>
    unfold next
    rw [run]
    change b.Spares t (op.Touches b)
    cases op with
    | pure value =>
      obtain ⟨a, admitted, -⟩ := map_ok_iff.mp run
      have admitted := Builder.open_ok admitted
      exact Builder.insert_spares admitted fun _ => nofun
    | pureBytes value =>
      obtain ⟨a, admitted, -⟩ := map_ok_iff.mp run
      have admitted := Builder.open_ok admitted
      exact Builder.insert_spares admitted fun _ => nofun
    | uniquePure value =>
      obtain ⟨a, admitted, -⟩ := map_ok_iff.mp run
      obtain ⟨_, ready, numbered, admitted⟩ := bind_ok_iff.mp (Builder.open_ok admitted)
      cases numbered
      obtain ⟨finalized, slots⟩ := Builder.insert_spares admitted fun _ => nofun
      exact ⟨finalized, slots⟩
    | object arg =>
      obtain ⟨a, admitted, -⟩ := map_ok_iff.mp run
      have finalized := Builder.object_finalized admitted
      rcases Builder.object_puts h admitted with ⟨-, puts⟩ | ⟨old, merged, -, -, puts⟩
      · exact Builder.spares_of_puts finalized puts rfl
      · exact Builder.spares_of_puts finalized puts rfl
    | objectId id =>
      obtain ⟨a, admitted, -⟩ := map_ok_iff.mp run
      exact Builder.spares_of_puts (Builder.objectId_finalized admitted)
        (Builder.objectId_puts admitted) rfl
    | markReceiving arg =>
      obtain ⟨_, marked, -⟩ := map_ok_iff.mp run
      exact markReceiving_spares h marked
    | resolve arg =>
      obtain ⟨_, supplied, -⟩ := map_ok_iff.mp run
      obtain ⟨-, -, slot, -, puts⟩ := Builder.resolve_puts h supplied
      have filling := Builder.resolve_filling arg b
      rw [supplied] at filling
      have finalized : t.finalized = b.finalized := by
        cases filling with
        | same | fill => rfl
      exact Builder.spares_of_puts finalized puts rfl
    | command c =>
      obtain ⟨a, appended, -⟩ := map_ok_iff.mp run
      exact Builder.command_spares appended
    | moveCall package module function typeArguments arguments =>
      obtain ⟨a, appended, -⟩ := map_ok_iff.mp run
      exact Builder.command_spares appended
    | makeMoveVec elementType elements =>
      obtain ⟨a, made, -⟩ := map_ok_iff.mp run
      unfold Builder.makeMoveVec at made
      split at made
      · cases made
      · exact Builder.command_spares made
    | inspect =>
      rw [step, get_bind] at run
      cases taken : b.inspect with
      | error e =>
        rw [taken] at run
        cases run
      | ok kind =>
        rw [taken] at run
        cases run
        exact Builder.spares_of_inputs rfl rfl
    | finalize => exact absurd rfl goesOn

end BuilderOp

end MoveTx
