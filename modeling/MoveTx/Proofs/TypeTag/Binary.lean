import MoveTx.TypeTag.Binary
import MoveTx.Proofs.Object

/-!
# Binary form of types

Reading a type with a number of levels left accepts exactly the types that are nested less deep than
that, so that a type is read back from its binary form if and only if its depth is at most
`TypeTag.maxDepth`.
-/

namespace MoveTx
open Step

namespace TypeTag

mutual

/-- Whether every name and every list of parameters in a type is short enough to be read. -/
def IsShort : TypeTag → Prop
  | .primitive _ => True
  | .vector t => IsShort t
  | .struct _ m n ts => readable m ∧ readable n ∧ ts.length ≤ maxSequenceLength ∧ AreShort ts

def AreShort : List TypeTag → Prop
  | [] => True
  | t :: ts => IsShort t ∧ AreShort ts

end

theorem areShort_iff {ts : List TypeTag} : AreShort ts ↔ ∀ t ∈ ts, t.IsShort := by
  induction ts with
  | nil => simp [AreShort]
  | cons t ts ih => rw [AreShort, ih, List.forall_mem_cons]

theorem depthList_le_iff {ts : List TypeTag} {n : Nat} : depthList ts ≤ n ↔ ∀ t ∈ ts, t.depth < n := by
  induction ts with
  | nil => simp [depthList]
  | cons t ts ih => rw [depthList, Nat.max_le, ih, List.forall_mem_cons, Nat.succ_le_iff]

theorem toBytesList_eq (ts : List TypeTag) : toBytesList ts = ts.flatMap toBytes := by
  induction ts with
  | nil => rfl
  | cons t ts ih => rw [toBytesList, ih, List.flatMap_cons]

theorem ofTag_iff {tag : Nat} {p : PrimitiveType} :
    PrimitiveType.ofTag? tag = some p ↔ tag = p.tag := by
  constructor
  · intro h
    unfold PrimitiveType.ofTag? at h
    split at h <;> cases h <;> rfl
  · rintro rfl
    cases p <;> rfl

/-- A struct is read when its names and its parameters are. -/
theorem structReader_ok_iff {parameter : Reader TypeTag} {domain : TypeTag → Prop}
    (reads : ∀ bs t rest, parameter bs = .ok t rest ↔ domain t ∧ bs = toBytes t ++ rest)
    {s : StructTag} {bs rest : Bytes} :
    structReader parameter bs = .ok s rest ↔
      (readable s.module ∧ readable s.name ∧ s.parameters.length ≤ maxSequenceLength ∧
          ∀ t ∈ s.parameters, domain t) ∧
        bs = encode s.address ++ (encode s.module ++ (encode s.name ++
          (Codec.listWith toBytes s.parameters ++ rest))) := by
  refine decode_bind_iff.trans ?_
  simp only [decode_bind_iff, Reader.list_bind_iff reads, pure_ok_iff]
  constructor
  · rintro ⟨address, _, -, rfl, module, _, named, rfl, name, _, named', rfl, parameters, _,
      ⟨short, all⟩, rfl, rfl, rfl⟩
    exact ⟨⟨named, named', short, all⟩, rfl⟩
  · rintro ⟨⟨named, named', short, all⟩, rfl⟩
    exact ⟨s.address, _, trivial, rfl, s.module, _, named, rfl, s.name, _, named', rfl,
      s.parameters, _, ⟨short, all⟩, rfl, rfl, rfl⟩

/-- The binary form of a struct, with its parameters as a list. -/
theorem toBytes_struct (a : Address) (m n : Identifier) (ts : List TypeTag) (rest : Bytes) :
    toBytes (.struct a m n ts) ++ rest =
      Codec.uleb 7 ++ (encode a ++ (encode m ++ (encode n ++ (Codec.listWith toBytes ts ++ rest)))) := by
  rw [toBytes, toBytesList_eq, Codec.listWith]
  simp only [List.append_assoc]

/-- With a number of levels left, exactly the types nested less deep than that are read. -/
theorem readerWithin_ok_iff {levels : Nat} {t : TypeTag} {bs rest : Bytes} :
    readerWithin levels bs = .ok t rest ↔
      (t.depth < levels ∧ t.IsShort) ∧ bs = t.toBytes ++ rest := by
  induction levels generalizing t bs rest with
  | zero => exact ⟨fun h => (throw_ok_iff.mp h).elim, fun h => (Nat.not_lt_zero _ h.1.1).elim⟩
  | succ levels ih =>
    refine Reader.variant_bind_iff.trans ?_
    constructor
    · rintro ⟨tag, u, -, rfl, h⟩
      split at h
      · obtain ⟨element, read, rfl⟩ := map_ok_iff.mp h
        obtain ⟨⟨shallow, short⟩, rfl⟩ := ih.mp read
        refine ⟨⟨?_, short⟩, by rw [toBytes, List.append_assoc]⟩
        rw [depth]
        omega
      · obtain ⟨s, read, rfl⟩ := map_ok_iff.mp h
        obtain ⟨⟨named, named', few, all⟩, rfl⟩ := (structReader_ok_iff fun _ _ _ => ih).mp read
        refine ⟨⟨?_, named, named', few, areShort_iff.mpr fun t inside => (all t inside).2⟩, ?_⟩
        · exact Nat.lt_succ_of_le (depthList_le_iff.mpr fun t inside => (all t inside).1)
        · rw [StructTag.toTypeTag, toBytes_struct]
      · cases found : PrimitiveType.ofTag? tag with
        | none =>
          simp only [found] at h
          exact (throw_ok_iff.mp h).elim
        | some p =>
          simp only [found] at h
          obtain ⟨rfl, rfl⟩ := pure_ok_iff.mp h
          obtain rfl := ofTag_iff.mp found
          exact ⟨⟨Nat.succ_pos _, trivial⟩, rfl⟩
    · rintro ⟨⟨shallow, short⟩, rfl⟩
      cases t with
      | primitive p =>
        refine ⟨p.tag, rest, by cases p <;> decide, rfl, ?_⟩
        cases p <;> rfl
      | vector element =>
        refine ⟨6, _, by decide, by rw [toBytes, List.append_assoc], ?_⟩
        exact map_ok_iff.mpr ⟨element, ih.mpr ⟨⟨Nat.lt_of_succ_lt_succ shallow, short⟩, rfl⟩, rfl⟩
      | struct a m n ts =>
        obtain ⟨named, named', few, all⟩ := short
        rw [toBytes_struct]
        refine ⟨7, _, by decide, rfl, map_ok_iff.mpr ⟨⟨a, m, n, ts⟩, ?_, rfl⟩⟩
        refine (structReader_ok_iff fun _ _ _ => ih).mpr ⟨⟨named, named', few, ?_⟩, rfl⟩
        intro t inside
        exact ⟨depthList_le_iff.mp (Nat.le_of_lt_succ shallow) t inside, areShort_iff.mp all t inside⟩

end TypeTag

instance : Readable TypeTag where
  readable t := t.depth ≤ TypeTag.maxDepth ∧ t.IsShort

instance : LawfulCodec TypeTag where
  decode_iff bs t rest := by
    refine TypeTag.readerWithin_ok_iff.trans ?_
    rw [Nat.lt_succ_iff]
    rfl

end MoveTx
