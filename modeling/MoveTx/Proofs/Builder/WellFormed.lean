import Mathlib.Logic.Relation
import Mathlib.Data.List.Nodup
import MoveTx.Builder.Basic
import MoveTx.Proofs.ByteOrder

/-!
# Well-formed builders

A builder is well formed when no two inputs share a key, every slot holds what its key promises, the
bounds on inputs and commands are kept, and every object input is in use. Whatever is done to a builder
is made of the elementary changes of `Builder.Change`. They keep it well formed, and keep its keys,
commands and pure inputs in place.
-/

namespace MoveTx

/-- What may be under a key. -/
inductive InputKey.Holds : InputKey → InputSlot → Prop
  | unresolved (id : Address) (receiving : Bool) : Holds (.object id) (.unresolved id receiving)
  | object (arg : ObjectArg) : Holds (.object arg.id) (.resolved (.object arg))
  | pure (bytes : Bytes) (origin : PureOrigin) : Holds (.pure bytes origin) (.resolved (.pure bytes))
  | unique (number : UInt64) (bytes : Bytes) : Holds (.unique number) (.resolved (.pure bytes))

/-- Pure bytes are never under the key of an object. -/
theorem InputKey.Holds.not_pure {id : Address} {bytes : Bytes} :
    ¬ (InputKey.object id).Holds (.resolved (.pure bytes)) :=
  fun holds => nomatch holds

namespace Builder

/-! ### Keys and their places -/

def keys (b : Builder) : List InputKey :=
  b.inputs.map (·.1)

theorem keys_get {b : Builder} {i : Nat} {key : InputKey} :
    b.keys[i]? = some key ↔ ∃ slot, b.inputs[i]? = some (key, slot) := by
  unfold keys
  simp

theorem slots_get {b : Builder} {i : Nat} {slot : InputSlot} :
    b.slots[i]? = some slot ↔ ∃ key, b.inputs[i]? = some (key, slot) := by
  unfold slots
  simp

theorem keys_of_indexOf? {b : Builder} {key : InputKey} {i : Nat} (found : b.indexOf? key = some i) :
    b.keys[i]? = some key := by
  unfold indexOf? at found
  obtain ⟨inside, same, -⟩ := List.findIdx?_eq_some_iff_getElem.mp found
  rw [keys_get, List.getElem?_eq_getElem inside]
  exact ⟨b.inputs[i].2, congrArg (fun key => some (key, b.inputs[i].2)) (eq_of_beq same)⟩

theorem indexOf?_eq_none {b : Builder} {key : InputKey} : b.indexOf? key = none ↔ key ∉ b.keys := by
  unfold indexOf? keys
  rw [List.findIdx?_eq_none_iff]
  simp only [List.mem_map, beq_eq_false_iff_ne]
  constructor
  · rintro absent ⟨entry, inside, same⟩
    exact absent entry inside same
  · exact fun absent entry inside same => absent ⟨entry, inside, same⟩

/-! ### The invariant -/

structure WellFormed (b : Builder) : Prop where
  keys_nodup : b.keys.Nodup
  slots_hold : ∀ entry ∈ b.inputs, entry.1.Holds entry.2
  inputs_le : b.inputs.length ≤ maxInputs
  commands_le : b.commands.length ≤ maxCommands
  objects_used : ∀ id, .object id ∈ b.keys → id ∈ b.objectsInUse

theorem wellFormed_empty : empty.WellFormed where
  keys_nodup := List.nodup_nil
  slots_hold := by simp [empty]
  inputs_le := Nat.zero_le _
  commands_le := Nat.zero_le _
  objects_used := by simp [empty, keys]

/-- What an earlier state of a builder keeps in every later one. -/
structure Extends (b later : Builder) : Prop where
  keys : b.keys <+: later.keys
  commands : b.commands <+: later.commands
  pures : ∀ (i : Nat) (key : InputKey) (bytes : Bytes),
    b.inputs[i]? = some (key, .resolved (.pure bytes)) →
      later.inputs[i]? = some (key, .resolved (.pure bytes))

theorem extends_refl (b : Builder) : b.Extends b :=
  ⟨List.prefix_refl _, List.prefix_refl _, fun _ _ _ here => here⟩

theorem Extends.trans {a b c : Builder} (h₁ : a.Extends b) (h₂ : b.Extends c) : a.Extends c :=
  ⟨h₁.keys.trans h₂.keys, h₁.commands.trans h₂.commands,
    fun i key bytes here => h₂.pures i key bytes (h₁.pures i key bytes here)⟩

theorem getElem?_of_prefix {α : Type} {xs ys : List α} (initial : xs <+: ys) {i : Nat} {x : α}
    (place : xs[i]? = some x) : ys[i]? = some x := by
  obtain ⟨inside, rfl⟩ := List.getElem?_eq_some_iff.mp place
  exact List.prefix_iff_getElem?.mp initial i inside

/-! ### Elementary changes -/

/-- One elementary change of a builder, with what makes it harmless. -/
inductive Change (b : Builder) : Builder → Prop
  | number : Change b { b with nonce := b.nonce + 1 }
  | use (id : Address) : Change b { b with objectsInUse := Address.insert id b.objectsInUse }
  | add (key : InputKey) (slot : InputSlot) (fresh : key ∉ b.keys)
      (room : b.inputs.length < maxInputs) (holds : key.Holds slot)
      (used : ∀ id, key = .object id → id ∈ b.objectsInUse) :
      Change b { b with inputs := b.inputs ++ [(key, slot)] }
  | fill (index : Nat) (id : Address) (slot : InputSlot) (place : b.keys[index]? = some (.object id))
      (holds : (InputKey.object id).Holds slot) : Change b (b.setSlot index slot)
  | append (c : Command) (room : b.commands.length < maxCommands) :
      Change b { b with commands := b.commands ++ [c] }
  | close : Change b { b with finalized := true }

/-- Any number of elementary changes, one after the other. -/
def Evolves : Builder → Builder → Prop :=
  Relation.ReflTransGen Change

theorem setSlot_get (b : Builder) (index i : Nat) (slot : InputSlot) :
    (b.setSlot index slot).inputs[i]? =
      b.inputs[i]?.map fun entry => if index = i then (entry.1, slot) else entry :=
  List.getElem?_modify _ _ _ _

theorem keys_setSlot (b : Builder) (index : Nat) (slot : InputSlot) :
    (b.setSlot index slot).keys = b.keys := by
  apply List.ext_getElem?
  intro i
  unfold keys
  rw [List.getElem?_map, List.getElem?_map, setSlot_get, Option.map_map]
  congr 1
  funext entry
  simp only [Function.comp_apply]
  split <;> rfl

/-- What an entry is after a slot has been replaced. -/
theorem mem_setSlot {b : Builder} {index : Nat} {slot : InputSlot} {entry : InputKey × InputSlot}
    (inside : entry ∈ (b.setSlot index slot).inputs) :
    entry ∈ b.inputs ∨ b.keys[index]? = some entry.1 ∧ entry.2 = slot := by
  obtain ⟨i, here⟩ := List.mem_iff_getElem?.mp inside
  rw [setSlot_get, Option.map_eq_some_iff] at here
  obtain ⟨old, before, same⟩ := here
  split at same
  · rename_i place
    subst place same
    exact Or.inr ⟨keys_get.mpr ⟨old.2, before⟩, rfl⟩
  · subst same
    exact Or.inl (List.mem_of_getElem? before)

theorem Change.wellFormed {b c : Builder} (change : Change b c) (h : b.WellFormed) : c.WellFormed := by
  cases change with
  | number | close => exact ⟨h.keys_nodup, h.slots_hold, h.inputs_le, h.commands_le, h.objects_used⟩
  | use id =>
    exact ⟨h.keys_nodup, h.slots_hold, h.inputs_le, h.commands_le,
      fun other inside => Address.mem_insert.mpr (Or.inr (h.objects_used other inside))⟩
  | add key slot fresh room holds used =>
    have keys_eq : keys { b with inputs := b.inputs ++ [(key, slot)] } = b.keys ++ [key] :=
      List.map_append
    refine ⟨?_, ?_, ?_, h.commands_le, ?_⟩
    · rw [keys_eq, ← List.concat_eq_append]
      exact h.keys_nodup.concat fresh
    · intro entry inside
      rcases List.mem_append.mp inside with old | new
      · exact h.slots_hold entry old
      · obtain rfl := List.mem_singleton.mp new
        exact holds
    · rw [List.length_append]
      exact room
    · intro id inside
      rw [keys_eq] at inside
      rcases List.mem_append.mp inside with old | new
      · exact h.objects_used id old
      · exact used id (List.mem_singleton.mp new).symm
  | fill index id slot place holds =>
    refine ⟨?_, ?_, ?_, h.commands_le, ?_⟩
    · rw [keys_setSlot]
      exact h.keys_nodup
    · intro entry inside
      rcases mem_setSlot inside with old | ⟨key, same⟩
      · exact h.slots_hold entry old
      · rw [same, ← Option.some.inj (place.symm.trans key)]
        exact holds
    · exact Nat.le_trans (Nat.le_of_eq (List.length_modify _ _ _)) h.inputs_le
    · rw [keys_setSlot]
      exact h.objects_used
  | append command room =>
    refine ⟨h.keys_nodup, h.slots_hold, h.inputs_le, ?_, h.objects_used⟩
    rw [List.length_append]
    exact room

theorem Change.extends {b c : Builder} (change : Change b c) (h : b.WellFormed) : b.Extends c := by
  cases change with
  | number | use | close =>
    exact ⟨List.prefix_refl _, List.prefix_refl _, fun _ _ _ here => here⟩
  | add key slot fresh room holds used =>
    refine ⟨?_, List.prefix_refl _, ?_⟩
    · exact (List.prefix_append b.inputs _).map _
    · intro i other bytes here
      obtain ⟨inside, -⟩ := List.getElem?_eq_some_iff.mp here
      rw [List.getElem?_append_left inside, here]
  | fill index id slot place holds =>
    refine ⟨?_, List.prefix_refl _, ?_⟩
    · simp only [keys_setSlot, List.prefix_refl]
    · intro i key bytes here
      -- Pure bytes are never under the key of an object, so another slot was filled.
      have held := h.slots_hold _ (List.mem_of_getElem? here)
      rw [setSlot_get, here, Option.map_some, if_neg]
      rintro rfl
      obtain rfl : InputKey.object id = key :=
        Option.some.inj (place.symm.trans (keys_get.mpr ⟨_, here⟩))
      exact InputKey.Holds.not_pure held
  | append command room => exact ⟨List.prefix_refl _, List.prefix_append _ _, fun _ _ _ here => here⟩

/-- Whatever is done, a well-formed builder stays so and what it has stays in place. -/
theorem Evolves.keeps {b c : Builder} (evolves : Evolves b c) (h : b.WellFormed) :
    c.WellFormed ∧ b.Extends c := by
  induction evolves with
  | refl => exact ⟨h, extends_refl b⟩
  | tail _ change ih =>
    obtain ⟨wellFormed, ext⟩ := ih
    exact ⟨change.wellFormed wellFormed, ext.trans (change.extends wellFormed)⟩

end Builder

end MoveTx
