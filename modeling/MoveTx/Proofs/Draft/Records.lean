import MoveTx.Proofs.Builder.Slot
import MoveTx.Proofs.Draft.Evolution

/-!
# What accesses leave in slots

Accesses by id are noted beside the builder, while those by reference change the slot of their object.
`SlotAfter` says what a slot may be after a sequence of accesses, and `Draft.Records` that a draft has it
so for every object.
-/

namespace MoveTx
open Step

/-- What the slot of an object may be after these accesses. Once there was an access by reference, the slot
tells of those alone. -/
inductive SlotAfter (us : List Access) (id : Address) : Option InputSlot → Prop
  | absent (unasked : ∀ u ∈ us, u.id ≠ id) : SlotAfter us id none
  | unresolved (receiving : Bool) (accessed : ∃ u ∈ us, u.id = id)
      (byId : ∀ u ∈ us, u.id = id → u.byReference = false) :
      SlotAfter us id (some (.unresolved id receiving))
  | shared (initialVersion : UInt64) (isMutable : Bool)
      (accessed : ∃ u ∈ us, u.id = id ∧ u.byReference = true)
      (joins : isMutable = true ↔ id.isAlwaysImmutable = false ∧
        ∃ u ∈ us, u.id = id ∧ u.byReference = true ∧ u.isMutable = true) :
      SlotAfter us id (some (.resolved (.object (.shared ⟨id, initialVersion, isMutable⟩))))
  | owned (r : ObjectRef) : SlotAfter us id (some (.resolved (.object (.owned r))))
  | receiving (r : ObjectRef) : SlotAfter us id (some (.resolved (.object (.receiving r))))

theorem exists_mem_concat {α : Type} {xs : List α} {y : α} {p : α → Prop} :
    (∃ x ∈ xs ++ [y], p x) ↔ (∃ x ∈ xs, p x) ∨ p y := by
  simp [or_and_right, exists_or]

namespace SlotAfter

variable {us : List Access} {id : Address} {slot : Option InputSlot}

/-- Accesses to other objects do not matter. -/
theorem append {vs : List Access} (h : SlotAfter us id slot) (others : ∀ v ∈ vs, v.id ≠ id) :
    SlotAfter (us ++ vs) id slot := by
  have same : ∀ p : Access → Prop, (∃ u ∈ us ++ vs, u.id = id ∧ p u) ↔ ∃ u ∈ us, u.id = id ∧ p u := by
    intro p
    constructor
    · rintro ⟨u, inside, here, holds⟩
      rcases List.mem_append.mp inside with old | new
      · exact ⟨u, old, here, holds⟩
      · exact absurd here (others u new)
    · rintro ⟨u, inside, here, holds⟩
      exact ⟨u, List.mem_append_left vs inside, here, holds⟩
  cases h with
  | absent unasked =>
    refine .absent ?_
    intro u inside
    exact (List.mem_append.mp inside).elim (unasked u) (others u)
  | unresolved receiving accessed byId =>
    obtain ⟨u, inside, here⟩ := accessed
    refine .unresolved receiving ⟨u, List.mem_append_left vs inside, here⟩ ?_
    intro v present here'
    exact (List.mem_append.mp present).elim (fun old => byId v old here') fun new =>
      absurd here' (others v new)
  | shared initialVersion isMutable accessed joins =>
    exact .shared initialVersion isMutable ((same _).mpr accessed) (joins.trans (and_congr_right' (same _).symm))
  | owned r => exact .owned r
  | receiving r => exact .receiving r

theorem marked {slot' : Option InputSlot} (h : SlotAfter us id slot)
    (marks : Option.Rel InputSlot.Marked slot slot') : SlotAfter us id slot' := by
  cases marks with
  | none => exact h
  | some mark =>
    cases mark with
    | same => exact h
    | owned r => exact .receiving r
    | unresolved other receiving =>
      cases h with
      | unresolved _ accessed byId => exact .unresolved true accessed byId

/-- An access by id is only noted, unless it is the first access. -/
theorem byId (h : SlotAfter us id slot) (isMutable : Bool) :
    SlotAfter (us ++ [⟨id, false, isMutable⟩]) id (some (slot.getD (.unresolved id false))) := by
  cases h with
  | absent unasked =>
    refine .unresolved false ⟨⟨id, false, isMutable⟩, by simp, rfl⟩ ?_
    intro u inside here
    rcases List.mem_append.mp inside with old | new
    · exact absurd here (unasked u old)
    · rw [List.mem_singleton.mp new]
  | unresolved receiving accessed byId =>
    obtain ⟨u, inside, here⟩ := accessed
    refine .unresolved receiving ⟨u, List.mem_append_left _ inside, here⟩ ?_
    intro v present here'
    rcases List.mem_append.mp present with old | new
    · exact byId v old here'
    · rw [List.mem_singleton.mp new]
  | shared initialVersion isMutable' accessed joins =>
    refine .shared initialVersion isMutable' ?_ ?_
    · obtain ⟨u, inside, here⟩ := accessed
      exact ⟨u, List.mem_append_left _ inside, here⟩
    · simpa using joins
  | owned r => exact .owned r
  | receiving r => exact .receiving r

/-- The first access by reference decides alone, whatever was noted before. -/
theorem firstReference (byId : ∀ u ∈ us, u.id = id → u.byReference = false) (initialVersion : UInt64)
    (isMutable : Bool) :
    SlotAfter (us ++ [⟨id, true, isMutable⟩]) id (some (.resolved (.object
      (.shared ⟨id, initialVersion, isMutable && !id.isAlwaysImmutable⟩)))) := by
  have none : ¬ ∃ u ∈ us, u.id = id ∧ u.byReference = true ∧ u.isMutable = true := by
    rintro ⟨u, inside, here, byReference, -⟩
    cases (byId u inside here).symm.trans byReference
  refine .shared initialVersion _ ⟨⟨id, true, isMutable⟩, by simp, rfl, rfl⟩ ?_
  rw [exists_mem_concat, or_iff_right none, Bool.and_eq_true, Bool.not_eq_true']
  simp only [true_and, and_comm]

/-- A reference to a shared object is merged with what its slot says of it. -/
theorem byReference (h : SlotAfter us id slot) {old merged : InputSlot} (held : slot = some old)
    {initialVersion : UInt64} {isMutable : Bool}
    (merge : Builder.mergeObject old
      (.shared ⟨id, initialVersion, isMutable && !id.isAlwaysImmutable⟩) = .ok merged) :
    SlotAfter (us ++ [⟨id, true, isMutable⟩]) id (some merged) := by
  subst held
  cases h with
  | unresolved receiving accessed byId =>
    have same : merged = .resolved (.object
        (.shared ⟨id, initialVersion, isMutable && !id.isAlwaysImmutable⟩)) := by
      cases receiving <;> exact (Except.ok.inj merge).symm
    rw [same]
    exact firstReference byId initialVersion isMutable
  | shared initialVersion' isMutable' accessed joins =>
    unfold Builder.mergeObject at merge
    simp only at merge
    split at merge
    · obtain rfl := Except.ok.inj merge
      refine .shared initialVersion' _ ⟨⟨id, true, isMutable⟩, by simp, rfl, rfl⟩ ?_
      rw [exists_mem_concat, and_or_left, Bool.or_eq_true, joins, Bool.and_eq_true,
        Bool.not_eq_true']
      simp only [true_and, and_comm]
    · cases merge
  | owned r =>
    simp [Builder.mergeObject] at merge
  | receiving r =>
    simp [Builder.mergeObject] at merge

/-- An owned reference is merged only with what is not known to be shared. -/
theorem ownedReference (h : SlotAfter us id slot) {old merged : InputSlot} (held : slot = some old)
    {r : ObjectRef} (merge : Builder.mergeObject old (.owned r) = .ok merged) :
    SlotAfter us id (some merged) := by
  subst held
  cases h with
  | unresolved receiving accessed byId =>
    cases receiving with
    | true =>
      obtain rfl := Except.ok.inj merge
      exact .receiving r
    | false =>
      obtain rfl := Except.ok.inj merge
      exact .owned r
  | shared initialVersion isMutable accessed joins => simp [Builder.mergeObject] at merge
  | owned r' =>
    simp only [Builder.mergeObject] at merge
    split at merge
    · obtain rfl := Except.ok.inj merge
      exact .owned r'
    · cases merge
  | receiving r' =>
    simp only [Builder.mergeObject] at merge
    split at merge
    · obtain rfl := Except.ok.inj merge
      exact .receiving r'
    · cases merge

end SlotAfter

/-- A step that is made of operations which name no object. -/
def BuilderStep.Plain {α : Type} (x : BuilderStep α) : Prop :=
  ∀ b a t, x b = .ok a t →
    ∃ ops : List BuilderOp, (∀ op ∈ ops, op.Plain) ∧ t = ops.foldl (fun b op => op.next b) b

namespace Draft

/-- The slots and the notes of a draft are those that these accesses leave. -/
structure Records (us : List Access) (d : Draft) : Prop where
  wellFormed : d.builder.WellFormed
  notes : ∀ use, use ∈ d.uses ↔ ∃ u ∈ us, u.use = use
  slots : ∀ id, SlotAfter us id (d.builder.slotOf? id)

theorem records_empty : Records [] empty where
  wellFormed := Builder.wellFormed_empty
  notes := fun use => by simp [empty]
  slots := fun id => .absent nofun

variable {us vs : List Access} {d t : Draft}

theorem records_plain (ops : List BuilderOp) (h : Records us d) (plain : ∀ op ∈ ops, op.Plain) :
    Records us { d with builder := ops.foldl (fun b op => op.next b) d.builder } := by
  induction ops generalizing d with
  | nil => exact h
  | cons op rest ih =>
    have marks := BuilderOp.plain_marks h.wellFormed (plain op List.mem_cons_self)
    have next : Records us { d with builder := op.next d.builder } :=
      ⟨(BuilderOp.next_keeps h.wellFormed op).1, h.notes, fun id => (h.slots id).marked (marks id)⟩
    exact ih next fun op inside => plain op (List.mem_cons_of_mem _ inside)

theorem Records.puts (h : Records us d) {id : Address} {slot : InputSlot} {b : Builder}
    (puts : d.builder.Puts id slot b) (toIt : ∀ v ∈ vs, v.id = id)
    (now : SlotAfter (us ++ vs) id (some slot)) (other : Address) :
    SlotAfter (us ++ vs) other (b.slotOf? other) := by
  by_cases same : other = id
  · subst same
    rw [puts.here]
    exact now
  · rw [puts.other same]
    apply (h.slots other).append
    intro v inside
    rw [toIt v inside]
    exact Ne.symm same

/-- The slot of an object is put in order after an access to it, and the access is noted. -/
theorem records_access (h : Records us d) {access : Access} {slot : InputSlot} {b : Builder}
    (wellFormed : b.WellFormed) (puts : d.builder.Puts access.id slot b)
    (now : SlotAfter (us ++ [access]) access.id (some slot)) :
    Records (us ++ [access]) ⟨b, access.use :: d.uses⟩ where
  wellFormed := wellFormed
  notes := by
    intro use
    rw [exists_mem_concat, List.mem_cons, h.notes, or_comm, eq_comm (a := use)]
  slots := h.puts puts (fun v inside => congrArg Access.id (List.mem_singleton.mp inside)) now

theorem records_byId (h : Records us d) {id : Address} {isMutable : Bool} {a : Argument} {b : Builder}
    (run : Builder.objectId id d.builder = .ok a b) :
    Records (us ++ [⟨id, false, isMutable⟩]) ⟨b, ⟨id, isMutable⟩ :: d.uses⟩ := by
  obtain ⟨wellFormed, -⟩ := BuilderOp.run_keeps (.objectId id) h.wellFormed rfl run
  have use : Access.use ⟨id, false, isMutable⟩ = ⟨id, isMutable⟩ := by simp [Access.use]
  rw [← use]
  exact records_access h wellFormed (Builder.objectId_puts run) ((h.slots id).byId isMutable)

theorem records_shared (h : Records us d) {r : SharedRef} {p : Parameter} {a : Argument} {b : Builder}
    (run : Builder.object (.shared (sharedUse r p)) d.builder = .ok a b) :
    Records (us ++ [⟨r.id, true, r.isMutable || p.needsMutable⟩])
      ⟨b, ⟨r.id, (sharedUse r p).isMutable⟩ :: d.uses⟩ := by
  obtain ⟨wellFormed, -⟩ := BuilderOp.run_keeps (.object _) h.wellFormed rfl run
  have use : Access.use ⟨r.id, true, r.isMutable || p.needsMutable⟩ =
      ⟨r.id, (sharedUse r p).isMutable⟩ := by simp [Access.use, sharedUse]
  rw [← use]
  have before := h.slots r.id
  rcases Builder.object_puts h.wellFormed run with ⟨absent, puts⟩ | ⟨old, merged, held, merge, puts⟩
  · apply records_access h wellFormed puts
    rw [show d.builder.slotOf? r.id = none from absent] at before
    cases before with
    | absent unasked => exact .firstReference (fun u inside here => absurd here (unasked u inside)) _ _
  · exact records_access h wellFormed puts (before.byReference held merge)

theorem records_owned (h : Records us d) {r : ObjectRef} {a : Argument} {b : Builder}
    (run : Builder.object (.owned r) d.builder = .ok a b) : Records us { d with builder := b } := by
  obtain ⟨wellFormed, -⟩ := BuilderOp.run_keeps (.object _) h.wellFormed rfl run
  refine ⟨wellFormed, h.notes, ?_⟩
  rw [← List.append_nil us]
  have noted : ∀ v ∈ ([] : List Access), v.id = r.id := nofun
  rcases Builder.object_puts h.wellFormed run with ⟨-, puts⟩ | ⟨old, merged, held, merge, puts⟩
  · exact h.puts puts noted (.owned r)
  · apply h.puts puts noted
    rw [List.append_nil]
    exact (h.slots r.id).ownedReference held merge

theorem records_lower (h : Records us d) {value : CallValue} {p : Parameter} {a : Argument}
    (run : lowerObject value p d = .ok a t) : Records (us ++ value.accesses p) t := by
  unfold lowerObject at run
  cases value with
  | argument handle =>
    obtain ⟨-, rfl⟩ := pure_ok_iff.mp run
    change Records (us ++ []) d
    rw [List.append_nil]
    exact h
  | address id | objectId id =>
    simp only [noteUse_bind] at run
    obtain ⟨b, inside, rfl⟩ := onBuilder_ok_iff.mp run
    exact records_byId h inside
  | object r =>
    obtain ⟨b, inside, rfl⟩ := onBuilder_ok_iff.mp run
    change Records (us ++ []) { d with builder := b }
    rw [List.append_nil]
    exact records_owned h inside
  | shared r =>
    simp only [noteUse_bind] at run
    obtain ⟨b, inside, rfl⟩ := onBuilder_ok_iff.mp run
    exact records_shared h inside
  | pure | seq | absent | present => exact (throw_ok_iff.mp run).elim

theorem Act.records (act : Act BuilderStep.Plain d vs t) (h : Records us d) : Records (us ++ vs) t := by
  cases act with
  | lower value p a t run => exact records_lower h run
  | build op plain answer b run =>
    have step : op.next d.builder = b := congrArg after run
    rw [List.append_nil, ← step]
    exact records_plain [op] h fun other inside => List.mem_singleton.mp inside ▸ plain
  | custom x own a b run =>
    obtain ⟨ops, plain, rfl⟩ := own _ _ _ run
    rw [List.append_nil]
    exact records_plain ops h plain

theorem Evolves.records (evolves : Evolves BuilderStep.Plain d vs t) (h : Records us d) :
    Records (us ++ vs) t := by
  induction evolves with
  | refl =>
    rw [List.append_nil]
    exact h
  | tail _ act ih =>
    rw [← List.append_assoc]
    exact act.records ih

end Draft

end MoveTx
