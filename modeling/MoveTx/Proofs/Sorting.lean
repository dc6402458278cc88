import Mathlib.Data.List.Sort

/-!
# Sorting by insertion

Lists are sorted by putting each member in front of the first that a test lets it precede. The test may
be strict, so the order of the result is a relation of its own, to which the test leads either way. When
that order is antisymmetric, lists of the same members are sorted to the same list, and no others are.
-/

namespace MoveTx

variable {α : Type} {test : α → α → Prop} [DecidableRel test] (le : α → α → Prop)

/-- A recursion that inserts each member in front of the first that it may precede is the sort. -/
theorem foldr_eq_insertionSort (insert : α → List α → List α) (single : ∀ a, insert a [] = [a])
    (step : ∀ a b rest, insert a (b :: rest) = if test a b then a :: b :: rest else b :: insert a rest)
    (xs : List α) : xs.foldr insert [] = xs.insertionSort test := by
  have same : insert = List.orderedInsert test := by
    funext a ys
    induction ys with
    | nil => exact single a
    | cons b rest ih => rw [step, List.orderedInsert_cons, ih]
  rw [same]
  rfl

theorem pairwise_orderedInsert (passed : ∀ a b, test a b → le a b) (failed : ∀ a b, ¬ test a b → le b a)
    (trans : ∀ a b c, le a b → le b c → le a c) (a : α) {xs : List α} (sorted : xs.Pairwise le) :
    (xs.orderedInsert test a).Pairwise le := by
  induction xs with
  | nil => exact List.pairwise_singleton _ _
  | cons b rest ih =>
    obtain ⟨first, sorted'⟩ := List.pairwise_cons.mp sorted
    rw [List.orderedInsert_cons]
    split
    · rename_i here
      refine List.pairwise_cons.mpr ⟨fun c inside => ?_, sorted⟩
      rcases List.mem_cons.mp inside with rfl | later
      · exact passed _ _ here
      · exact trans _ _ _ (passed _ _ here) (first c later)
    · rename_i behind
      refine List.pairwise_cons.mpr ⟨fun c inside => ?_, ih sorted'⟩
      rcases (List.mem_orderedInsert test).mp inside with rfl | later
      · exact failed _ _ behind
      · exact first c later

theorem pairwise_insertionSort (passed : ∀ a b, test a b → le a b) (failed : ∀ a b, ¬ test a b → le b a)
    (trans : ∀ a b c, le a b → le b c → le a c) (xs : List α) :
    (xs.insertionSort test).Pairwise le := by
  induction xs with
  | nil => exact .nil
  | cons a rest ih => exact pairwise_orderedInsert le passed failed trans a ih

theorem insertionSort_eq_iff_perm (passed : ∀ a b, test a b → le a b)
    (failed : ∀ a b, ¬ test a b → le b a) (trans : ∀ a b c, le a b → le b c → le a c)
    (antisymm : ∀ a b, le a b → le b a → a = b) {xs ys : List α} :
    xs.insertionSort test = ys.insertionSort test ↔ xs.Perm ys := by
  have permX := List.perm_insertionSort test xs
  have permY := List.perm_insertionSort test ys
  have sorted := pairwise_insertionSort le passed failed trans
  constructor
  · intro same
    rw [same] at permX
    exact permX.symm.trans permY
  · intro perm
    have perms := permX.trans (perm.trans permY.symm)
    exact perms.eq_of_pairwise (fun a b _ _ => antisymm a b) (sorted xs) (sorted ys)

end MoveTx
