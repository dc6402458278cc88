import Mathlib.Data.List.Nodup

/-!
# Searching by a key

Where no two members of a list have one key, a search for a key finds the member that has it.
-/

namespace MoveTx

theorem find?_key_iff {α κ : Type} [BEq κ] [LawfulBEq κ] {key : α → κ} {l : List α}
    (distinct : (l.map key).Nodup) {k : κ} {a : α} :
    l.find? (fun x => key x == k) = some a ↔ a ∈ l ∧ key a = k := by
  constructor
  · intro found
    have named := List.find?_some found
    exact ⟨List.mem_of_find?_eq_some found, beq_iff_eq.mp named⟩
  · rintro ⟨inside, rfl⟩
    have some : (l.find? fun x => key x == key a).isSome :=
      List.find?_isSome.mpr ⟨a, inside, beq_iff_eq.mpr rfl⟩
    obtain ⟨b, found⟩ := Option.isSome_iff_exists.mp some
    have named := List.find?_some found
    rw [found, List.inj_on_of_nodup_map distinct (List.mem_of_find?_eq_some found) inside
      (beq_iff_eq.mp named)]

end MoveTx
