import MoveTx.Json.Form
import MoveTx.Proofs.Address
import MoveTx.Proofs.Digest
import MoveTx.Proofs.Json.Reordering
import MoveTx.Proofs.Lookup

/-!
# Lawful JSON forms

A JSON form is lawful when its reader finds every value again in the JSON that was written for it, with the
entries of objects in any order and whatever the nesting. Lists and optional values of lawful forms are
lawful, and a record or a variant is read by its fields.
-/

namespace MoveTx

class LawfulJsonForm (α : Type) [JsonForm α] : Prop where
  reads : ∀ (a : α) (j : Json) (levels : Nat), Json.Reordered (toJson a) j → j.depth ≤ levels →
    ofJson? levels j = some a

/-- The types of which no value is written as null. -/
class NonNullForm (α : Type) [JsonForm α] : Prop where
  ne_null : ∀ a : α, toJson a ≠ .null

/-- The types of which every value can be held back before it is read. -/
class HoldableForm (α : Type) [JsonForm α] : Prop where
  isHoldable : ∀ a : α, (toJson a).isHoldable = true

namespace Json

theorem ofJson?_of_reordered {α : Type} [JsonForm α] [LawfulJsonForm α] {a : α} {j : Json} {levels : Nat}
    (same : Reordered (toJson a) j) (few : j.depth ≤ levels) : ofJson? levels j = some a :=
  LawfulJsonForm.reads a j levels same few

theorem map_ofJson?_of_reordered {α β : Type} [JsonForm α] [LawfulJsonForm α] {a : α} {j : Json}
    {levels : Nat} (same : Reordered (toJson a) j) (few : j.depth ≤ levels) (f : α → β) :
    f <$> ofJson? levels j = some (f a) := by
  rw [ofJson?_of_reordered same few]
  rfl

/-- The value comes back from its JSON, also when objects have been put in another order, and no other
value has the same JSON up to that order. -/
def ReadsBack (α : Type) [JsonForm α] : Prop :=
  ∀ a : α, decode? (toJson a) = some a ∧
    ∀ j, Reordered (toJson a) j → decode? j = some a ∧ ∀ b : α, Reordered (toJson b) j → b = a

theorem readsBack {α : Type} [JsonForm α] [LawfulJsonForm α] : ReadsBack α := by
  have again (a : α) (j : Json) (same : Reordered (toJson a) j) : decode? j = some a :=
    ofJson?_of_reordered same (Nat.le_succ _)
  refine fun a => ⟨again a _ (.refl _), fun j same => ⟨again a j same, fun b other => ?_⟩⟩
  exact Option.some.inj ((again b j other).symm.trans (again a j same))

/-! ### Records -/

theorem knownEntries?_eq {names : List String} {fields : List (String × Json)}
    (distinct : (fields.map (·.1)).Nodup) (known : ∀ field ∈ fields, field.1 ∈ names) :
    knownEntries? names (fields.map fun field => (some field.1, field.2)) = some fields := by
  have named : (fields.map fun field => (some field.1, field.2)).mapM
      (fun entry => entry.1.map fun key => (key, entry.2)) = some fields := by
    clear distinct known
    induction fields with
    | nil => rfl
    | cons field rest ih =>
      rw [List.map_cons, List.mapM_cons, ih]
      rfl
  have kept : fields.filter (fun entry => names.contains entry.1) = fields :=
    List.filter_eq_self.mpr fun field inside => List.contains_iff_mem.mpr (known field inside)
  unfold knownEntries?
  rw [named]
  simp only [Option.bind_eq_bind, Option.bind_some, kept, if_pos distinct]
  rfl

/-- The fields that have been found are those of a written record. -/
structure Fields.Hold (f : Fields) (fields : List (String × Json)) : Prop where
  named : f.inOrder = false
  there : ∀ name v, (name, v) ∈ fields →
    ∃ v', f.get? name = some v' ∧ Reordered v v' ∧ v'.depth ≤ f.levels
  missing : ∀ name, name ∉ fields.map (·.1) → f.get? name = none

theorem exists_fields? {fields : List (String × Json)} {names : List String} {j : Json} {levels : Nat}
    (same : Reordered (.ofFields fields) j) (few : j.depth ≤ levels)
    (known : (fields.map (·.1)).Sublist names) (distinct : names.Nodup) :
    ∃ f, j.fields? names levels = some f ∧ f.levels < levels ∧ f.Hold fields := by
  obtain ⟨fields', rfl, reordered⟩ := same.exists_fields
  have distinct' : (fields'.map (·.1)).Nodup :=
    reordered.names.nodup_iff.mp (distinct.sublist known)
  have known' : ∀ field ∈ fields', field.1 ∈ names := fun field inside =>
    known.mem (reordered.names.mem_iff.mpr (List.mem_map_of_mem inside))
  have some : 0 < levels := Nat.lt_of_lt_of_le (Nat.succ_pos _) few
  refine ⟨⟨fields', false, levels - 1⟩, ?_, Nat.sub_one_lt_of_lt some, rfl, fun name v inside => ?_,
    fun name outside => ?_⟩
  · rw [ofFields, fields?, knownEntries?_eq distinct' known', Option.bind_eq_bind, Option.bind_some,
      if_pos some]
    rfl
  · obtain ⟨v', inside', same⟩ := reordered.values name v inside
    have deep := Nat.le_trans (depth_le_of_mem_fields inside') few
    refine ⟨v', ?_, same, Nat.le_sub_one_of_lt deep⟩
    rw [Fields.get?, (find?_key_iff distinct').mpr ⟨inside', rfl⟩]
    rfl
  · have absent : fields'.find? (fun entry => entry.1 == name) = none := by
      rw [List.find?_eq_none]
      intro field inside equal
      obtain rfl := beq_iff_eq.mp equal
      exact outside (reordered.names.mem_iff.mpr (List.mem_map_of_mem inside))
    rw [Fields.get?, absent]
    rfl

/-- A record is read where its fields are. -/
theorem fields?_bind {α : Type} {fields : List (String × Json)} {names : List String} {j : Json}
    {levels : Nat} {a : α} {read : Fields → Option α} (same : Reordered (.ofFields fields) j)
    (few : j.depth ≤ levels) (known : (fields.map (·.1)).Sublist names) (distinct : names.Nodup)
    (reads : ∀ f, f.levels < levels → f.Hold fields → read f = some a) :
    (j.fields? names levels >>= read) = some a := by
  obtain ⟨f, found, inside, held⟩ := exists_fields? same few known distinct
  rw [found]
  exact reads f inside held

namespace Fields.Hold

variable {α : Type} [JsonForm α] [LawfulJsonForm α] {f : Fields} {fields : List (String × Json)}
  {name : String} {a : α}

theorem ofJson?_get? (held : f.Hold fields) (inside : (name, toJson a) ∈ fields) :
    ∃ j, f.get? name = some j ∧ ofJson? f.levels j = some a := by
  obtain ⟨j, found, same, few⟩ := held.there name _ inside
  exact ⟨j, found, ofJson?_of_reordered same few⟩

theorem required (held : f.Hold fields) (inside : (name, toJson a) ∈ fields) :
    f.required name = some a := by
  obtain ⟨j, found, read⟩ := held.ofJson?_get? inside
  rw [Fields.required, found]
  exact read

theorem withDefault (held : f.Hold fields) (inside : (name, toJson a) ∈ fields) (default : α) :
    f.withDefault name default = some a := by
  obtain ⟨j, found, read⟩ := held.ofJson?_get? inside
  rw [Fields.withDefault, found]
  exact read

end Fields.Hold

/-! ### Variants -/

/-- A variant is read where its content is. -/
theorem variant?_bind {α : Type} {name : String} {content j : Json} {levels : Nat} {a : α}
    {read : Variant → Option α} (same : Reordered (.ofVariant name content) j) (few : j.depth ≤ levels)
    (reads : ∀ content' inner, inner < levels → Reordered content content' → content'.depth ≤ inner →
      read ⟨name, some content', inner⟩ = some a) : (j.variant? levels >>= read) = some a := by
  obtain ⟨content', rfl, inside⟩ := same.exists_ofVariant
  have only : (name, content') ∈ [(name, content')] := List.mem_cons_self
  have deep : content'.depth + 1 ≤ levels := Nat.le_trans (depth_le_of_mem_fields only) few
  have some : 0 < levels := Nat.lt_of_lt_of_le (Nat.succ_pos _) deep
  rw [variant?, if_pos some]
  exact reads content' (levels - 1) (Nat.sub_one_lt_of_lt some) inside (Nat.le_sub_one_of_lt deep)

/-! ### Lists -/

theorem mapM_of_reordered {α : Type} {write : α → Json} {read : Json → Option α} {as : List α}
    {items : List Json} (same : ReorderedItems (as.map write) items)
    (reads : ∀ a ∈ as, ∀ j ∈ items, Reordered (write a) j → read j = some a) :
    items.mapM read = some as := by
  induction as generalizing items with
  | nil =>
    cases same
    rfl
  | cons a as ih =>
    cases same with
    | @cons _ k _ items first others =>
      have read : read k = some a := reads a List.mem_cons_self k List.mem_cons_self first
      have later := ih others fun b inside j among =>
        reads b (List.mem_cons_of_mem _ inside) j (List.mem_cons_of_mem _ among)
      rw [List.mapM_cons, read, later]
      rfl

theorem exists_items? {items : List Json} {j : Json} {levels : Nat}
    (same : Reordered (.array items) j) (few : j.depth ≤ levels) :
    ∃ items', j.items? levels = some items' ∧ ReorderedItems items items' ∧
      ∀ k ∈ items', k.depth ≤ levels - 1 := by
  obtain ⟨items', rfl, each⟩ := same.exists_items
  refine ⟨items', if_pos (Nat.lt_of_lt_of_le (Nat.succ_pos _) few), each, fun k inside => ?_⟩
  have deep : k.depth + 1 ≤ levels :=
    Nat.le_trans (Nat.succ_le_succ (depth_le_of_mem_items inside)) few
  exact Nat.le_sub_one_of_lt deep

end Json

/-! ### Basic types -/

open Json

theorem Json.isHoldable_ofFields (fields : List (String × Json)) :
    (ofFields fields).isHoldable = fields.all fun field => field.2.isHoldable := by
  rw [ofFields, isHoldable, entriesHoldable_eq, List.all_map]
  rfl

instance : LawfulJsonForm Bool where
  reads b j levels same _ := by
    rw [same.eq_bool]
    rfl

instance : NonNullForm Bool := ⟨nofun⟩

theorem natural?_natural {n bound : Nat} (small : n < bound) : (Json.natural n).natural? bound = some n :=
  if_pos small

instance : LawfulJsonForm UInt64 where
  reads n j levels same _ := by
    rw [same.eq_natural]
    change (Json.natural? _ _).map UInt64.ofNat = _
    rw [natural?_natural n.toNat_lt, Option.map_some, UInt64.ofNat_toNat]

instance : NonNullForm UInt64 := ⟨nofun⟩

theorem pow_le_sub_pow {k m n : Nat} (few : k ≤ m) (more : m < n) :
    Nat.pow 2 k ≤ Nat.pow 2 n - Nat.pow 2 m := by
  have low : Nat.pow 2 k ≤ Nat.pow 2 m := Nat.pow_le_pow_right (n := 2) (by decide) few
  have high : Nat.pow 2 m * 2 ≤ Nat.pow 2 n := Nat.pow_le_pow_right (n := 2) (by decide) more
  omega

theorem lt_firstInfinite (n : UInt64) : n.toNat < firstInfinite := by
  have small : n.toNat < Nat.pow 2 64 := n.toNat_lt
  unfold firstInfinite
  -- The powers are too great to be computed here.
  generalize least : 970 = m
  generalize greatest : 1024 = k
  exact Nat.lt_of_lt_of_le small (pow_le_sub_pow (by omega) (by omega))

instance : HoldableForm UInt64 where
  isHoldable n := by
    change (Json.natural n.toNat).isHoldable = true
    rw [isHoldable, decide_eq_true_iff]
    exact lt_firstInfinite n

instance : LawfulJsonForm UInt16 where
  reads n j levels same _ := by
    rw [same.eq_natural]
    change (Json.natural? _ _).map UInt16.ofNat = _
    rw [natural?_natural n.toNat_lt, Option.map_some, UInt16.ofNat_toNat]

instance : LawfulJsonForm String where
  reads s j levels same _ := by
    rw [same.eq_ofString]
    rfl

instance : NonNullForm String := ⟨nofun⟩

instance : HoldableForm String := ⟨fun _ => rfl⟩

instance : LawfulJsonForm Address where
  reads a j levels same _ := by
    rw [same.eq_ofString]
    change (Address.parse a.text).toOption = some a
    rw [a.parse_text]
    rfl

instance : HoldableForm Address := ⟨fun _ => rfl⟩

instance : LawfulJsonForm Digest where
  reads d j levels same _ := by
    rw [same.eq_ofString]
    change (Digest.parse d.text).toOption = some d
    rw [d.parse_text]
    rfl

instance : NonNullForm Digest := ⟨nofun⟩

instance : HoldableForm Digest := ⟨fun _ => rfl⟩

section

variable {α : Type} [JsonForm α] [LawfulJsonForm α]

instance : LawfulJsonForm (List α) where
  reads as j levels same few := by
    obtain ⟨items, found, each, shallow⟩ := exists_items? same few
    change (j.items? levels).bind (fun items => items.mapM (ofJson? (levels - 1))) = some as
    rw [found]
    exact mapM_of_reordered each fun a _ k inside same => ofJson?_of_reordered same (shallow k inside)

instance [NonNullForm α] : LawfulJsonForm (Option α) where
  reads
    | none, j, levels, same, _ => by
      rw [same.eq_null]
      rfl
    | some a, j, levels, same, few => by
      have some := same.ne_null (NonNullForm.ne_null a)
      have read : ofJson? levels j = Option.some a := ofJson?_of_reordered same few
      cases j with
      | null => exact absurd rfl some
      | _ => exact congrArg (Option.map Option.some) read

end

instance {α : Type} [JsonForm α] [HoldableForm α] : HoldableForm (Option α) where
  isHoldable
    | none => rfl
    | some a => HoldableForm.isHoldable a

namespace Json.Fields.Hold

variable {α : Type} [JsonForm α] [LawfulJsonForm (Option α)] {f : Fields} {fields : List (String × Json)}
  {name : String} {o : Option α}

theorem optional (held : f.Hold fields) (inside : (name, toJson o) ∈ fields) :
    f.optional name = some o := by
  obtain ⟨j, found, read⟩ := held.ofJson?_get? inside
  rw [Fields.optional, found]
  exact read

end Json.Fields.Hold

end MoveTx
