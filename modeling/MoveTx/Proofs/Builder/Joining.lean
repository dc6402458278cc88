import MoveTx.Proofs.Builder.Sharing
import MoveTx.Proofs.Builder.Touch

/-!
# Shared objects that are admitted again

A shared object may be admitted any number of times, by its id and by references to it. What its slot then
holds is the join of the references: their one version, mutable when any of them was. So the slot tells
which references were admitted, and not in which order.
-/

namespace MoveTx
open Step

/-- References to one version of an object. -/
def SharedRef.Agree (rs : List SharedRef) : Prop :=
  ∀ r ∈ rs, ∀ r' ∈ rs, r.initialVersion = r'.initialVersion

/-- What the slot of a shared object is, if there is one, once these references to it were admitted. -/
inductive InputSlot.Joins (id : Address) : List SharedRef → Option InputSlot → Prop
  | absent : Joins id [] none
  | byId : Joins id [] (some (.unresolved id false))
  | shared (rs : List SharedRef) (version : UInt64) (brought : rs ≠ [])
      (agree : ∀ r ∈ rs, r.initialVersion = version) :
      Joins id rs (some (.resolved (.object (.shared ⟨id, version, rs.any (·.isMutable)⟩))))

namespace SharedRef

variable {rs rs' : List SharedRef} {r : SharedRef} {version : UInt64}

theorem agree_of_version (same : ∀ r ∈ rs, r.initialVersion = version) : Agree rs :=
  fun r inside r' inside' => (same r inside).trans (same r' inside').symm

theorem Agree.subset (agree : Agree rs') (among : rs ⊆ rs') : Agree rs :=
  fun r inside r' inside' => agree r (among inside) r' (among inside')

theorem version_concat (same : ∀ r ∈ rs, r.initialVersion = version) (equal : version = r.initialVersion) :
    ∀ other ∈ rs ++ [r], other.initialVersion = version := by
  intro other among
  rcases List.mem_append.mp among with before | last
  · exact same other before
  · rw [List.mem_singleton.mp last, equal]

theorem agree_concat_iff (brought : rs ≠ []) (same : ∀ r ∈ rs, r.initialVersion = version) :
    Agree (rs ++ [r]) ↔ version = r.initialVersion := by
  obtain ⟨first, inside⟩ := List.exists_mem_of_ne_nil rs brought
  constructor
  · intro agree
    rw [← same first inside]
    exact agree first (List.mem_append_left _ inside) r (by simp)
  · intro equal
    exact agree_of_version (version_concat same equal)

end SharedRef

namespace InputSlot

variable {id : Address} {rs : List SharedRef} {slot : InputSlot} {r : SharedRef}

theorem Joins.agree {slot? : Option InputSlot} (joins : Joins id rs slot?) : SharedRef.Agree rs := by
  cases joins with
  | absent | byId => exact nofun
  | shared _ version brought agree => exact SharedRef.agree_of_version agree

theorem Joins.of_mem {slot? : Option InputSlot} (joins : Joins id rs slot?) (inside : r ∈ rs) :
    slot? = some (.resolved (.object (.shared ⟨id, r.initialVersion, rs.any (·.isMutable)⟩))) := by
  cases joins with
  | absent | byId => cases inside
  | shared _ version brought agree => rw [agree r inside]

/-- The first reference is what the slot holds. -/
theorem joins_first (about : r.id = id) : Joins id [r] (some (.resolved (.object (.shared r)))) := by
  subst about
  have agree : ∀ other ∈ [r], other.initialVersion = r.initialVersion :=
    fun other inside => congrArg _ (List.mem_singleton.mp inside)
  have joins : Joins r.id [r] _ := .shared [r] r.initialVersion (List.cons_ne_nil _ _) agree
  rw [List.any_cons, List.any_nil, Bool.or_false] at joins
  exact joins

/-- A reference is merged exactly when it agrees with those before. -/
theorem Joins.merge (joins : Joins id rs (some slot)) (about : r.id = id) :
    (∃ merged, Builder.mergeObject slot (.shared r) = .ok merged ∧ Joins id (rs ++ [r]) (some merged)) ∨
      ∃ e, Builder.mergeObject slot (.shared r) = .error e ∧ ¬ SharedRef.Agree (rs ++ [r]) := by
  cases joins with
  | byId => exact Or.inl ⟨_, rfl, joins_first about⟩
  | shared _ version brought agree =>
    have merge : Builder.mergeObject
        (.resolved (.object (.shared ⟨id, version, rs.any (·.isMutable)⟩))) (.shared r) =
          if version = r.initialVersion then
            .ok (.resolved (.object (.shared ⟨id, version, rs.any (·.isMutable) || r.isMutable⟩)))
          else .error (.argumentTypeMismatch (.conflictingReferences r.id)) := rfl
    rw [merge, SharedRef.agree_concat_iff brought agree]
    by_cases same : version = r.initialVersion
    · rw [if_pos same]
      have joined : Joins id (rs ++ [r]) _ := .shared (rs ++ [r]) version
        (List.append_ne_nil_of_left_ne_nil brought _) (SharedRef.version_concat agree same)
      rw [List.any_append, List.any_cons, List.any_nil, Bool.or_false] at joined
      exact Or.inl ⟨_, rfl, joined⟩
    · rw [if_neg same]
      exact Or.inr ⟨_, rfl, same⟩

end InputSlot

namespace Builder

variable {b : Builder} {id : Address} {slot : InputSlot} {arg : ObjectArg}

/-! ### Admissions that succeed -/

theorem insert_succeeds {key : InputKey} (slot : InputSlot)
    (room : key ∉ b.keys → b.inputs.length < maxInputs) : ∃ a c, insert key slot b = .ok a c := by
  rcases insert_cases key slot b with ⟨i, -, run⟩ | ⟨fresh, full, -⟩ | ⟨-, -, run⟩
  · exact ⟨_, _, run⟩
  · exact absurd (room (indexOf?_eq_none.mp fresh)) (Nat.not_lt_of_le full)
  · exact ⟨_, _, run⟩

theorem objectId_succeeds (isOpen : b.finalized = false)
    (room : b.slotOf? id = none → b.inputs.length < maxInputs) : ∃ a c, objectId id b = .ok a c := by
  obtain ⟨a, c, run⟩ : ∃ a c,
      insert (.object id) (.unresolved id false) (b.withUse id) = .ok a c :=
    insert_succeeds _ fun fresh => room (slotOf?_eq_none.mpr fresh)
  exact ⟨a, c, (open_run isOpen).trans run⟩

theorem object_succeeds (isOpen : b.finalized = false) (absent : b.slotOf? arg.id = none)
    (room : b.inputs.length < maxInputs) : ∃ a c, object arg b = .ok a c := by
  have fresh := slotOf?_eq_none.mp absent
  obtain ⟨a, c, run⟩ : ∃ a c,
      insert (.object arg.id) (.resolved (.object arg)) (b.withUse arg.id) = .ok a c :=
    insert_succeeds _ fun _ => room
  refine ⟨a, c, (open_run isOpen).trans ?_⟩
  rw [get_bind, indexOf?_eq_none.mpr fresh]
  exact run

/-- An object that is there is admitted again as its slot and the new reference can be merged. -/
theorem object_again (arg : ObjectArg) (h : b.WellFormed) (isOpen : b.finalized = false)
    (held : b.slotOf? arg.id = some slot) :
    (∀ merged, mergeObject slot arg = .ok merged → ∃ a c, object arg b = .ok a c) ∧
      ∀ e, mergeObject slot arg = .error e → object arg b = .error e b := by
  have inside : .object arg.id ∈ b.keys := List.mem_map_of_mem (mem_of_slotOf? held)
  cases found : b.indexOf? (.object arg.id) with
  | none => exact absurd inside (indexOf?_eq_none.mp found)
  | some i =>
    obtain ⟨old, entry⟩ := keys_get.mp (keys_of_indexOf? found)
    have there := (slotOf?_eq_some h.keys_nodup).mpr (List.mem_of_getElem? entry)
    obtain rfl := Option.some.inj (there.symm.trans held)
    constructor
    · intro merged merge
      refine ⟨.input (UInt16.ofNat i), b.setSlot i merged, (open_run isOpen).trans ?_⟩
      rw [get_bind]
      simp only [found, entry, merge]
      rfl
    · intro e merge
      refine (open_run isOpen).trans ?_
      rw [get_bind]
      simp only [found, entry, merge]
      rfl

end Builder

namespace BuilderOp

variable {b : Builder} {op : BuilderOp} {ops ops' : List BuilderOp} {id : Address} {rs : List SharedRef}
  {r : SharedRef}

/-! ### Runs that share an object -/

/-- The shared reference to the object that an operation brings. -/
def reference? (id : Address) : BuilderOp → Option SharedRef
  | object (.shared r) => if r.id = id then some r else none
  | _ => none

/-- The references to the object that a sequence of operations brings. -/
def references (id : Address) (ops : List BuilderOp) : List SharedRef :=
  ops.filterMap (reference? id)

/-- Whether an operation does nothing to the object but to admit it by its id or as a shared object. -/
def Shares (id : Address) (b : Builder) (op : BuilderOp) : Prop :=
  op ≠ .finalize ∧
    (op.Touches b id → op = .objectId id ∨ ∃ r : SharedRef, r.id = id ∧ op = .object (.shared r))

def SharesAlong (id : Address) (b : Builder) : List BuilderOp → Prop
  | [] => True
  | op :: rest => op.Shares id b ∧ SharesAlong id (op.next b) rest

/-- Whether there is room for one more input when the object is first admitted. -/
def RoomFor (id : Address) (b : Builder) : List BuilderOp → Prop
  | [] => True
  | op :: rest =>
    (op.admits? = some (.object id) → b.inputs.length < maxInputs) ∧
      (op.admits? ≠ some (.object id) → RoomFor id (op.next b) rest)

/-- Whether every reference to the object is admitted. -/
def AdmitsAll (id : Address) (b : Builder) : List BuilderOp → Prop
  | [] => True
  | op :: rest =>
    ((op.reference? id).isSome → (op.handle? b).isSome) ∧ AdmitsAll id (op.next b) rest

theorem reference?_eq_some : op.reference? id = some r ↔ r.id = id ∧ op = .object (.shared r) := by
  unfold reference?
  split
  · rename_i r'
    constructor
    · intro same
      split at same
      · cases same
        exact ⟨‹_›, rfl⟩
      · cases same
    · rintro ⟨about, same⟩
      cases same
      rw [if_pos about]
  · rename_i other
    constructor
    · nofun
    · rintro ⟨-, rfl⟩
      exact absurd rfl (other r)

theorem touches_of_admits (admits : op.admits? = some (.object id)) : op.Touches b id := by
  cases op with
  | object | objectId =>
    cases admits
    exact rfl
  | _ => cases admits

/-- How an operation that shares the object goes on from what was admitted before. -/
inductive Joining (op : BuilderOp) (b : Builder) (id : Address) (rs : List SharedRef) : Prop
  | apart (brings : op.reference? id = none) (joins : InputSlot.Joins id rs ((op.next b).slotOf? id))
      (there : op.admits? = some (.object id) → (op.next b).slotOf? id ≠ none)
  | joined (r : SharedRef) (brings : op.reference? id = some r) (given : (op.handle? b).isSome)
      (joins : InputSlot.Joins id (rs ++ [r]) ((op.next b).slotOf? id))
  | refused (r : SharedRef) (brings : op.reference? id = some r) (refuses : op.handle? b = none)
      (disagrees : ¬ SharedRef.Agree (rs ++ [r]))

theorem handle?_of_ok {x : BuilderStep Argument} {a : Argument} {c : Builder} (made : op.step = .handle <$> x)
    (run : x b = .ok a c) : op.handle? b = some a := by
  rw [handle?_eq_some_iff, next_eq made run, made]
  exact map_of_ok run

theorem handle?_of_error {x : BuilderStep Argument} {e : BuilderError} {c : Builder}
    (made : op.step = .handle <$> x) (run : x b = .error e c) : op.handle? b = none := by
  unfold handle? answer
  rw [made, map_of_error run]

theorem joining_objectId (isOpen : b.finalized = false) (joins : InputSlot.Joins id rs (b.slotOf? id))
    (room : b.slotOf? id = none → b.inputs.length < maxInputs) : (objectId id).Joining b id rs := by
  obtain ⟨a, c, run⟩ := Builder.objectId_succeeds isOpen room
  have puts := Builder.objectId_puts run
  have next : (objectId id).next b = c := next_eq rfl run
  have there := next ▸ puts.here
  refine .apart rfl ?_ fun _ absent => nomatch there.symm.trans absent
  rw [there]
  generalize b.slotOf? id = slot? at joins
  cases joins with
  | absent | byId => exact .byId
  | shared _ version brought agree => exact .shared rs version brought agree

theorem joining_object (h : b.WellFormed) (isOpen : b.finalized = false)
    (joins : InputSlot.Joins r.id rs (b.slotOf? r.id))
    (room : b.slotOf? r.id = none → b.inputs.length < maxInputs) :
    (object (.shared r)).Joining b r.id rs := by
  have brings : (object (.shared r)).reference? r.id = some r := reference?_eq_some.mpr ⟨rfl, rfl⟩
  -- Whatever is put into the slot of an admission that succeeds is what the next builder holds.
  have admits : ∀ a c slot, Builder.object (.shared r) b = .ok a c → b.Puts r.id slot c →
      InputSlot.Joins r.id (rs ++ [r]) (some slot) → (object (.shared r)).Joining b r.id rs := by
    intro a c slot run puts joined
    have next : (object (.shared r)).next b = c := next_eq rfl run
    have given : ((object (.shared r)).handle? b).isSome := by rw [handle?_of_ok rfl run]; rfl
    refine .joined r brings given ?_
    rw [next, puts.here]
    exact joined
  cases held : b.slotOf? r.id with
  | none =>
    rw [held] at joins
    cases joins
    obtain ⟨a, c, run⟩ : ∃ a c, Builder.object (.shared r) b = .ok a c :=
      Builder.object_succeeds isOpen held (room held)
    rcases Builder.object_puts h run with ⟨-, puts⟩ | ⟨old, merged, there, -, -⟩
    · exact admits a c _ run puts (InputSlot.joins_first rfl)
    · cases held.symm.trans there
  | some slot =>
    rw [held] at joins
    obtain ⟨succeeds, fails⟩ := Builder.object_again (.shared r) h isOpen held
    rcases joins.merge rfl with ⟨merged, merge, joined⟩ | ⟨e, merge, disagrees⟩
    · obtain ⟨a, c, run⟩ := succeeds merged merge
      rcases Builder.object_puts h run with ⟨absent, -⟩ | ⟨old, merged', there, merge', puts⟩
      · cases held.symm.trans absent
      · obtain rfl := Option.some.inj (held.symm.trans there)
        obtain rfl := Except.ok.inj (merge.symm.trans merge')
        exact admits a c merged run puts joined
    · exact .refused r brings (handle?_of_error rfl (fails e merge)) disagrees

theorem step_joining (h : b.WellFormed) (isOpen : b.finalized = false) (shares : op.Shares id b)
    (joins : InputSlot.Joins id rs (b.slotOf? id))
    (room : b.slotOf? id = none → op.admits? = some (.object id) → b.inputs.length < maxInputs) :
    op.Joining b id rs := by
  obtain ⟨goesOn, only⟩ := shares
  by_cases touches : op.Touches b id
  · rcases only touches with rfl | ⟨r, rfl, rfl⟩
    · exact joining_objectId isOpen joins fun absent => room absent rfl
    · exact joining_object h isOpen joins fun absent => room absent rfl
  · have same := (next_spares h goesOn).slots id touches
    refine .apart ?_ (same ▸ joins) ?_
    · cases brings : op.reference? id with
      | none => rfl
      | some r =>
        obtain ⟨about, rfl⟩ := reference?_eq_some.mp brings
        exact absurd about touches
    · exact fun admits => absurd (touches_of_admits admits) touches

/-- Room matters only until the object is there. -/
theorem room_next (h : b.WellFormed) (room : b.slotOf? id = none → RoomFor id b (op :: ops))
    (there : op.admits? = some (.object id) → (op.next b).slotOf? id ≠ none)
    (absent : (op.next b).slotOf? id = none) : RoomFor id (op.next b) ops := by
  have fresh := Builder.slotOf?_eq_none.mp absent
  have before : b.slotOf? id = none :=
    Builder.slotOf?_eq_none.mpr fun inside => fresh ((next_keeps h op).2.keys.subset inside)
  exact (room before).2 fun admits => there admits absent

/-- All references are admitted exactly when they agree, with each other and with those before. Then the
slot is the join of all. -/
theorem foldl_joins (h : b.WellFormed) (isOpen : b.finalized = false)
    (joins : InputSlot.Joins id rs (b.slotOf? id)) (shares : SharesAlong id b ops)
    (room : b.slotOf? id = none → RoomFor id b ops) :
    (AdmitsAll id b ops ↔ SharedRef.Agree (rs ++ references id ops)) ∧
      (AdmitsAll id b ops → InputSlot.Joins id (rs ++ references id ops)
        ((ops.foldl (fun b op => op.next b) b).slotOf? id)) := by
  induction ops generalizing b rs with
  | nil =>
    have none : rs ++ references id [] = rs := List.append_nil rs
    rw [none]
    exact ⟨⟨fun _ => joins.agree, fun _ => trivial⟩, fun _ => joins⟩
  | cons op rest ih =>
    obtain ⟨here, later⟩ := shares
    have wellFormed := (next_keeps h op).1
    have isOpen' : (op.next b).finalized = false := (next_spares h here.1).finalized.trans isOpen
    rw [List.foldl_cons]
    unfold AdmitsAll
    cases step_joining h isOpen here joins fun absent => (room absent).1 with
    | apart brings joins there =>
      have same : references id (op :: rest) = references id rest := List.filterMap_cons_none brings
      obtain ⟨all, joined⟩ := ih wellFormed isOpen' joins later (room_next h room there)
      rw [same, brings]
      exact ⟨⟨fun admits => all.mp admits.2, fun agree => ⟨nofun, all.mpr agree⟩⟩,
        fun admits => joined admits.2⟩
    | joined r brings given joins =>
      have same : rs ++ references id (op :: rest) = rs ++ [r] ++ references id rest := by
        rw [references, List.filterMap_cons_some brings, List.append_assoc]
        rfl
      have there : op.admits? = some (.object id) → (op.next b).slotOf? id ≠ none := by
        intro _ absent
        rw [absent] at joins
        generalize made : rs ++ [r] = joined at joins
        cases joins
        exact List.append_ne_nil_of_right_ne_nil rs (List.cons_ne_nil r []) made
      obtain ⟨all, joined⟩ := ih wellFormed isOpen' joins later (room_next h room there)
      rw [same]
      exact ⟨⟨fun admits => all.mp admits.2, fun agree => ⟨fun _ => given, all.mpr agree⟩⟩,
        fun admits => joined admits.2⟩
    | refused r brings refuses disagrees =>
      have refused : ¬ ((op.reference? id).isSome → (op.handle? b).isSome) := by
        rw [brings, refuses]
        exact fun given => nomatch given rfl
      have among : rs ++ [r] ⊆ rs ++ references id (op :: rest) := by
        rw [references, List.filterMap_cons_some brings]
        exact List.append_subset.mpr ⟨List.subset_append_left _ _, by simp⟩
      exact ⟨⟨fun admits => absurd admits.1 refused, fun agree => absurd (agree.subset among) disagrees⟩,
        fun admits => absurd admits.1 refused⟩

/-- Admitting a shared object again is a join. In a run that first admits an object when there is room, and
touches it only by its id and by shared references, all references are admitted exactly when they agree on
the version. Then the slot holds that version, mutable when any of them is, and it is the same after every
such run that brings the same references in another order. -/
theorem run_joins (reachable : b.Reachable) (isOpen : b.finalized = false) (fresh : .object id ∉ b.keys)
    (shares : SharesAlong id b ops) (room : RoomFor id b ops) :
    (AdmitsAll id b ops ↔ SharedRef.Agree (references id ops)) ∧
      (AdmitsAll id b ops → ∀ r ∈ references id ops,
        (ops.foldl (fun b op => op.next b) b).slotOf? id = some (.resolved (.object (.shared
          ⟨id, r.initialVersion, (references id ops).any (·.isMutable)⟩)))) ∧
      ∀ ops', SharesAlong id b ops' → RoomFor id b ops' →
        (references id ops').Perm (references id ops) →
          (AdmitsAll id b ops' ↔ AdmitsAll id b ops) ∧
            (AdmitsAll id b ops → references id ops ≠ [] →
              (ops'.foldl (fun b op => op.next b) b).slotOf? id =
                (ops.foldl (fun b op => op.next b) b).slotOf? id) := by
  have joins : InputSlot.Joins id [] (b.slotOf? id) := Builder.slotOf?_eq_none.mpr fresh ▸ .absent
  have joined : ∀ ops, SharesAlong id b ops → RoomFor id b ops →
      (AdmitsAll id b ops ↔ SharedRef.Agree (references id ops)) ∧
        (AdmitsAll id b ops → ∀ r ∈ references id ops,
          (ops.foldl (fun b op => op.next b) b).slotOf? id = some (.resolved (.object (.shared
            ⟨id, r.initialVersion, (references id ops).any (·.isMutable)⟩)))) := by
    intro ops shares room
    obtain ⟨all, slot⟩ := foldl_joins reachable.wellFormed isOpen joins shares fun _ => room
    exact ⟨all, fun admits r inside => (slot admits).of_mem inside⟩
  obtain ⟨all, slot⟩ := joined ops shares room
  refine ⟨all, slot, ?_⟩
  intro ops' shares' room' perm
  obtain ⟨all', slot'⟩ := joined ops' shares' room'
  have same : AdmitsAll id b ops' ↔ AdmitsAll id b ops := by
    rw [all, all']
    exact ⟨fun agree => agree.subset perm.symm.subset, fun agree => agree.subset perm.subset⟩
  refine ⟨same, ?_⟩
  intro admits brought
  obtain ⟨r, inside⟩ := List.exists_mem_of_ne_nil _ brought
  rw [slot admits r inside, slot' (same.mpr admits) r (perm.mem_iff.mpr inside), perm.any_eq]

/-- The clock by its id, then to be read, then to be changed. -/
def clockRead : List BuilderOp :=
  [.objectId .clock, .object (.shared ⟨.clock, 1, false⟩), .object (.shared ⟨.clock, 1, true⟩)]

/-- The clock to be changed, then by its id, then to be read, with bytes in between. -/
def clockChanged : List BuilderOp :=
  [.object (.shared ⟨.clock, 1, true⟩), .pureBytes ⟨[7], .boolean⟩, .objectId .clock,
    .object (.shared ⟨.clock, 1, false⟩)]

theorem clockRead_joins :
    (run clockRead).slotOf? .clock = some (.resolved (.object (.shared ⟨.clock, 1, true⟩))) ∧
      (run clockChanged).slotOf? .clock = (run clockRead).slotOf? .clock := by
  have byId : ∀ b, (objectId .clock).Shares .clock b := fun _ => ⟨nofun, fun _ => .inl rfl⟩
  have byRef : ∀ b isMutable, (object (.shared ⟨.clock, 1, isMutable⟩)).Shares .clock b :=
    fun _ _ => ⟨nofun, fun _ => .inr ⟨_, rfl, rfl⟩⟩
  have room : 0 < maxInputs := by decide
  have shares : SharesAlong .clock .empty clockRead := ⟨byId _, byRef _ _, byRef _ _, trivial⟩
  have shares' : SharesAlong .clock .empty clockChanged :=
    ⟨byRef _ _, ⟨nofun, nofun⟩, byId _, byRef _ _, trivial⟩
  obtain ⟨all, slot, reordered⟩ := run_joins Builder.reachable_empty rfl List.not_mem_nil shares
    ⟨fun _ => room, fun other => absurd rfl other⟩
  have admits : AdmitsAll .clock .empty clockRead := all.mpr (by unfold SharedRef.Agree; decide)
  obtain ⟨-, same⟩ := reordered clockChanged shares' ⟨fun _ => room, fun other => absurd rfl other⟩
    (by decide)
  exact ⟨slot admits _ List.mem_cons_self, same admits (List.cons_ne_nil _ _)⟩

end BuilderOp

end MoveTx
