import Mathlib.Data.Multiset.AddSub
import Mathlib.Data.Multiset.MapFold
import MoveTx.Package.Digest
import MoveTx.Proofs.ByteOrder
import MoveTx.Proofs.Codec.Reader
import MoveTx.Proofs.Sorting

/-!
# What a package digest identifies

The bytes that are hashed are the components in ascending order. They can be split into components
again, and ascending order leaves nothing of the order in which components were given, so the bytes are
the same for the same components, each as often, and for no others.
-/

namespace MoveTx

namespace PackageDigest

/-- The hash of each module and the address of each dependency, each as often as it is given. -/
def componentBag (modules : List Bytes) (dependencies : List Address) : Multiset Bytes32 :=
  (modules : Multiset Bytes).map Blake2b.hash + (dependencies : Multiset Address).map Address.raw

variable {modules modules' : List Bytes} {dependencies dependencies' : List Address}

theorem coe_components (modules : List Bytes) (dependencies : List Address) :
    (components modules dependencies : Multiset Bytes32) = componentBag modules dependencies :=
  rfl

/-! ### Components in ascending order -/

theorem sortComponents_eq (cs : List Bytes32) :
    sortComponents cs = cs.insertionSort fun a b => a.before b = true :=
  foldr_eq_insertionSort insertComponent (fun _ => rfl) (fun _ _ _ => rfl) cs

theorem sortComponents_eq_iff {cs ds : List Bytes32} :
    sortComponents cs = sortComponents ds ↔ cs.Perm ds := by
  rw [sortComponents_eq, sortComponents_eq]
  have before_iff : ∀ a b : Bytes32, a.before b = true ↔ a.toBytes < b.toBytes :=
    fun a b => bytesBefore_iff
  refine insertionSort_eq_iff_perm (fun a b => a.toBytes ≤ b.toBytes) ?_ ?_ ?_ ?_
  · intro a b before
    exact List.le_of_lt ((before_iff a b).mp before)
  · intro a b notBefore
    exact List.not_lt.mp (mt (before_iff a b).mpr notBefore)
  · intro a b c first second
    exact List.le_trans first second
  · intro a b first second
    obtain ⟨as, sized⟩ := a
    obtain ⟨bs, sized'⟩ := b
    obtain rfl : as = bs := List.le_antisymm first second
    rfl

/-! ### Components in a row -/

/-- All components are of one length, so they can be told apart in a row. -/
theorem flatMap_toBytes_inj {cs ds : List Bytes32}
    (same : cs.flatMap FixedBytes.toBytes = ds.flatMap FixedBytes.toBytes) : cs = ds := by
  have reads : ∀ bs (c : Bytes32) rest,
      Reader.fixed 32 bs = .ok c rest ↔ True ∧ bs = c.toBytes ++ rest := by
    intro bs c rest
    rw [Reader.fixed_ok_iff, true_and]
  have nonempty : ∀ c : Bytes32, c.toBytes ≠ [] :=
    fun c => List.ne_nil_of_length_pos (Nat.lt_of_lt_of_eq (by decide) c.length_eq.symm)
  exact Reader.flatMap_inj reads nonempty (fun _ _ => trivial) (fun _ _ => trivial) same

theorem preimage_eq_iff :
    preimage modules dependencies = preimage modules' dependencies' ↔
      componentBag modules dependencies = componentBag modules' dependencies' := by
  rw [← coe_components, ← coe_components, Multiset.coe_eq_coe, ← sortComponents_eq_iff]
  exact ⟨flatMap_toBytes_inj, congrArg _⟩

/-- A digest is the hash of bytes that are the same exactly for the same components, each as often. So it
does not depend on the order of the modules or of the dependencies. -/
theorem preimage_identifies (modules modules' : List Bytes)
    (dependencies dependencies' : List Address) :
    compute modules dependencies = ⟨Blake2b.hash (preimage modules dependencies)⟩ ∧
      (preimage modules dependencies = preimage modules' dependencies' ↔
        componentBag modules dependencies = componentBag modules' dependencies') ∧
      (modules.Perm modules' → dependencies.Perm dependencies' →
        compute modules dependencies = compute modules' dependencies') := by
  refine ⟨rfl, preimage_eq_iff, fun moved moved' => ?_⟩
  have bags : componentBag modules dependencies = componentBag modules' dependencies' := by
    rw [componentBag, Multiset.coe_eq_coe.mpr moved, Multiset.coe_eq_coe.mpr moved']
    rfl
  rw [compute, preimage_eq_iff.mpr bags]
  rfl

/-- The order is lost, but not how often a dependency is given. -/
theorem swapped_identifies :
    compute [[1], [2]] [.moveStdlib, .suiFramework] = compute [[2], [1]] [.suiFramework, .moveStdlib] ∧
      preimage [[1]] [.moveStdlib, .moveStdlib] ≠ preimage [[1]] [.moveStdlib] := by
  obtain ⟨-, -, unordered⟩ := preimage_identifies [[1], [2]] [[2], [1]]
    [.moveStdlib, .suiFramework] [.suiFramework, .moveStdlib]
  obtain ⟨-, repeated, -⟩ := preimage_identifies [[1]] [[1]] [.moveStdlib, .moveStdlib] [.moveStdlib]
  refine ⟨unordered (.swap _ _ _) (.swap _ _ _), fun same => ?_⟩
  have counts := congrArg Multiset.card (repeated.mp same)
  simp [componentBag] at counts

end PackageDigest

end MoveTx
