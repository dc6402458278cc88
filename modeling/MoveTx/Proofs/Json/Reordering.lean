import Mathlib.Data.List.Perm.Basic
import MoveTx.Json.Basic

/-!
# JSON values up to the order of entries

The entries of an object have no order of their own: whoever keeps a value may keep them in another one.
`Reordered j k` says that `k` is `j` with the entries of its objects in some order, at every depth. A record
is then an object with the same names, each with its value up to order.
-/

namespace MoveTx.Json

mutual

/-- The second value is the first one with the entries of objects in any order. -/
inductive Reordered : Json → Json → Prop
  | refl (j : Json) : Reordered j j
  | array {items items' : List Json} (each : ReorderedItems items items') :
      Reordered (.array items) (.array items')
  | object {entries between entries' : List (Option String × Json)}
      (each : ReorderedEntries entries between) (order : between.Perm entries') :
      Reordered (.object entries) (.object entries')

inductive ReorderedItems : List Json → List Json → Prop
  | nil : ReorderedItems [] []
  | cons {j k : Json} {items items' : List Json} (first : Reordered j k)
      (others : ReorderedItems items items') : ReorderedItems (j :: items) (k :: items')

inductive ReorderedEntries : List (Option String × Json) → List (Option String × Json) → Prop
  | nil : ReorderedEntries [] []
  | cons {key : Option String} {j k : Json} {entries entries' : List (Option String × Json)}
      (first : Reordered j k) (others : ReorderedEntries entries entries') :
      ReorderedEntries ((key, j) :: entries) ((key, k) :: entries')

end

variable {j k : Json}

theorem ReorderedItems.refl (items : List Json) : ReorderedItems items items := by
  induction items with
  | nil => exact .nil
  | cons j items ih => exact .cons (.refl j) ih

theorem ReorderedEntries.refl (entries : List (Option String × Json)) :
    ReorderedEntries entries entries := by
  induction entries with
  | nil => exact .nil
  | cons entry entries ih => exact .cons (.refl entry.2) ih

/-! ### The forms of reordered values -/

theorem Reordered.eq_ofString {s : String} (same : Reordered (.ofString s) j) : j = .ofString s := by
  cases same
  rfl

theorem Reordered.eq_natural {n : Nat} (same : Reordered (.natural n) j) : j = .natural n := by
  cases same
  rfl

theorem Reordered.eq_bool {b : Bool} (same : Reordered (.bool b) j) : j = .bool b := by
  cases same
  rfl

theorem Reordered.eq_null (same : Reordered .null j) : j = .null := by
  cases same
  rfl

theorem Reordered.ne_null (same : Reordered j k) (some : j ≠ .null) : k ≠ .null := by
  rintro rfl
  cases same
  exact some rfl

theorem Reordered.exists_items {items : List Json} (same : Reordered (.array items) j) :
    ∃ items', j = .array items' ∧ ReorderedItems items items' := by
  cases same with
  | refl => exact ⟨items, rfl, .refl items⟩
  | array each => exact ⟨_, rfl, each⟩

theorem Reordered.exists_entries {entries : List (Option String × Json)}
    (same : Reordered (.object entries) j) :
    ∃ between entries', j = .object entries' ∧ ReorderedEntries entries between ∧
      between.Perm entries' := by
  cases same with
  | refl => exact ⟨entries, entries, rfl, .refl entries, .refl entries⟩
  | object each order => exact ⟨_, _, rfl, each, order⟩

/-! ### Records -/

/-- The fields of one record are there in the other, in any order and with reordered values. -/
structure FieldsReordered (fields fields' : List (String × Json)) : Prop where
  names : (fields.map (·.1)).Perm (fields'.map (·.1))
  values : ∀ name v, (name, v) ∈ fields → ∃ v', (name, v') ∈ fields' ∧ Reordered v v'

theorem ReorderedEntries.exists_fields {fields : List (String × Json)}
    {entries : List (Option String × Json)}
    (same : ReorderedEntries (fields.map fun field => (some field.1, field.2)) entries) :
    ∃ fields', entries = fields'.map (fun field => (some field.1, field.2)) ∧
      FieldsReordered fields fields' := by
  induction fields generalizing entries with
  | nil =>
    cases same
    exact ⟨[], rfl, .refl _, nofun⟩
  | cons field fields ih =>
    cases same with
    | cons first others =>
      rename_i k _
      obtain ⟨fields', rfl, later⟩ := ih others
      refine ⟨(field.1, k) :: fields', rfl, later.names.cons field.1, fun name v inside => ?_⟩
      rcases List.mem_cons.mp inside with rfl | inside
      · exact ⟨k, List.mem_cons_self, first⟩
      · obtain ⟨v', inside', same⟩ := later.values name v inside
        exact ⟨v', List.mem_cons_of_mem _ inside', same⟩

theorem Reordered.exists_fields {fields : List (String × Json)} (same : Reordered (.ofFields fields) j) :
    ∃ fields', j = .ofFields fields' ∧ FieldsReordered fields fields' := by
  obtain ⟨between, entries, rfl, each, order⟩ := same.exists_entries
  obtain ⟨fields₁, rfl, reordered⟩ := each.exists_fields
  -- What is behind the reordering of entries with names is a reordering of the fields.
  have named : ∀ entry ∈ entries, (some (entry.1.getD ""), entry.2) = entry := by
    intro entry inside
    obtain ⟨field, -, rfl⟩ := List.mem_map.mp (order.mem_iff.mpr inside)
    rfl
  have turned : (fields₁.map id).Perm (entries.map fun entry => (entry.1.getD "", entry.2)) := by
    have mapped := order.map fun entry => (entry.1.getD "", entry.2)
    rw [List.map_map] at mapped
    exact mapped
  rw [List.map_id] at turned
  refine ⟨entries.map fun entry => (entry.1.getD "", entry.2), ?_, ?_⟩
  · rw [ofFields, List.map_map]
    exact congrArg Json.object ((List.map_congr_left named).trans (List.map_id _)).symm
  · refine ⟨reordered.names.trans (turned.map _), fun name v inside => ?_⟩
    obtain ⟨v', inside', same⟩ := reordered.values name v inside
    exact ⟨v', turned.mem_iff.mp inside', same⟩

/-- Two fields stand in one order or in the other. -/
theorem FieldsReordered.eq_or_eq_swap {a b : String × Json} {fields : List (String × Json)}
    (reordered : FieldsReordered [a, b] fields) (apart : a.1 ≠ b.1) :
    ∃ v w, Reordered a.2 v ∧ Reordered b.2 w ∧
      (fields = [(a.1, v), (b.1, w)] ∨ fields = [(b.1, w), (a.1, v)]) := by
  obtain ⟨v, first, same⟩ := reordered.values a.1 a.2 List.mem_cons_self
  obtain ⟨w, second, same'⟩ := reordered.values b.1 b.2 (List.mem_cons_of_mem _ List.mem_cons_self)
  refine ⟨v, w, same, same', ?_⟩
  have counted : fields.length = 2 := by simpa using reordered.names.length_eq.symm
  obtain ⟨x, y, rfl⟩ := List.length_eq_two.mp counted
  have differ : (a.1, v) ≠ (b.1, w) := fun equal => apart (Prod.mk.inj equal).1
  rw [List.mem_pair] at first second
  rcases first with rfl | rfl
  · exact Or.inl (by rw [second.resolve_left differ.symm])
  · exact Or.inr (by rw [second.resolve_right differ.symm])

theorem Reordered.exists_ofVariant {name : String} {content : Json}
    (same : Reordered (.object [(some name, content)]) j) :
    ∃ content', j = .object [(some name, content')] ∧ Reordered content content' := by
  obtain ⟨between, entries, rfl, each, order⟩ := same.exists_entries
  cases each with
  | cons first others =>
    cases others
    obtain rfl := List.perm_singleton.mp order.symm
    exact ⟨_, rfl, first⟩

/-! ### Holding and depth -/

theorem entriesHoldable_eq (entries : List (Option String × Json)) :
    entriesHoldable entries = entries.all fun entry => entry.1.isSome && entry.2.isHoldable := by
  induction entries with
  | nil => rfl
  | cons entry entries ih => rw [entriesHoldable, List.all_cons, ih]

mutual

/-- A value can be held in any order. -/
theorem Reordered.isHoldable_eq {j k : Json} : Reordered j k → j.isHoldable = k.isHoldable
  | .refl _ => rfl
  | .array each => by rw [isHoldable, isHoldable, each.areHoldable_eq]
  | .object each order => by
    rw [isHoldable, isHoldable, each.entriesHoldable_eq, Json.entriesHoldable_eq,
      Json.entriesHoldable_eq, order.all_eq]

theorem ReorderedItems.areHoldable_eq {items items' : List Json} :
    ReorderedItems items items' → areHoldable items = areHoldable items'
  | .nil => rfl
  | .cons first others => by rw [areHoldable, areHoldable, first.isHoldable_eq, others.areHoldable_eq]

theorem ReorderedEntries.entriesHoldable_eq {entries entries' : List (Option String × Json)} :
    ReorderedEntries entries entries' → entriesHoldable entries = entriesHoldable entries'
  | .nil => rfl
  | .cons first others => by
    rw [entriesHoldable, entriesHoldable, first.isHoldable_eq, others.entriesHoldable_eq]

end

theorem depth_le_of_mem_items {items : List Json} (inside : j ∈ items) : j.depth ≤ depthOfItems items := by
  induction items with
  | nil => cases inside
  | cons first rest ih =>
    rw [depthOfItems]
    rcases List.mem_cons.mp inside with rfl | later
    · exact Nat.le_max_left _ _
    · exact Nat.le_trans (ih later) (Nat.le_max_right _ _)

theorem depth_le_of_mem_fields {fields : List (String × Json)} {name : String}
    (inside : (name, j) ∈ fields) : j.depth + 1 ≤ (ofFields fields).depth := by
  refine Nat.succ_le_succ ?_
  induction fields with
  | nil => cases inside
  | cons first rest ih =>
    rw [List.map_cons, depthOfEntries]
    rcases List.mem_cons.mp inside with rfl | later
    · exact Nat.le_max_left _ _
    · exact Nat.le_trans (ih later) (Nat.le_max_right _ _)

end MoveTx.Json
