import MoveTx.Proofs.Draft.Lowering
import MoveTx.Proofs.PureValue.Typing

/-!
# Sequences of pure values

A sequence that comes to one pure input is compared by the types that its items show. Items that have a
type and show it are all of the same one. What is not compared are the insides of items, and items that
show no type.
-/

namespace MoveTx
open Step

namespace Draft

variable {d t : Draft} {items : List CallValue} {p : Parameter} {i : UInt16}

theorem checkHomogeneous_ok_iff {values : List PureValue} :
    checkHomogeneous values = .ok () ↔
      ∃ shown, ∀ v ∈ values, ∀ u, v.typeTag? = some u → u = shown := by
  have tags : ∀ shown, (∀ u ∈ values.filterMap PureValue.typeTag?, u = shown) ↔
      ∀ v ∈ values, ∀ u, v.typeTag? = some u → u = shown := by
    intro shown
    simp only [List.mem_filterMap]
    constructor
    · exact fun same v inside u shows => same u ⟨v, inside, shows⟩
    · rintro same u ⟨v, inside, shows⟩
      exact same v inside u shows
  simp only [← tags]
  unfold checkHomogeneous
  generalize values.filterMap PureValue.typeTag? = shows
  cases shows with
  | nil => exact iff_of_true rfl ⟨.bool, nofun⟩
  | cons first rest =>
    simp only [List.forall_mem_cons]
    cases found : rest.find? (· ≠ first) with
    | none =>
      refine iff_of_true rfl ⟨first, rfl, fun u inside => ?_⟩
      simpa using List.find?_eq_none.mp found u inside
    | some other =>
      refine iff_of_false nofun ?_
      rintro ⟨shown, rfl, same⟩
      have differs : other ≠ first := by simpa using List.find?_some found
      exact differs (same other (List.mem_of_find?_eq_some found))

/-- The items of a sequence that comes to one pure input have one type, as far as each has a type and shows
it. If all of them do, the bytes are those of a vector of that type. -/
theorem sequence_typed (reachable : d.builder.Reachable)
    (run : lower (.seq items) p d = .ok (.input i) t) :
    ∃ values, CallValue.asPureList? items p.element = some values ∧
      t.builder.slots[i.toNat]? = some (.resolved (.pure (PureValue.seq values).toBytes)) ∧
      ∃ u, (∀ v ∈ values, v.typeTag? ≠ none → ∀ s, v.HasType s → s = u) ∧
        ((∀ v ∈ values, v.typeTag? ≠ none ∧ ∃ s, v.HasType s) →
          (PureValue.seq values).HasType (.vector u)) := by
  rcases lowerSeq_ok run with ⟨values, list, check, run⟩ | ⟨-, -, handles, u, -, run⟩
  · obtain ⟨b, inside, rfl⟩ := onBuilder_ok_iff.mp run
    obtain ⟨_, same, place⟩ := Builder.pure_place reachable.wellFormed inside
    cases same
    obtain ⟨shown, agree⟩ := checkHomogeneous_ok_iff.mp check
    have typed : ∀ v ∈ values, v.typeTag? ≠ none → ∀ s, v.HasType s → s = shown := by
      intro v within shows s typed
      obtain ⟨u, shows⟩ := Option.ne_none_iff_exists'.mp shows
      exact (typed.eq_of_typeTag? shows).trans (agree v within u shows)
    refine ⟨values, list, place, shown, typed, ?_⟩
    intro every
    refine .seq fun v within => ?_
    obtain ⟨shows, s, hasType⟩ := every v within
    exact typed v within shows s hasType ▸ hasType
  · obtain ⟨b, inside, -⟩ := onBuilder_ok_iff.mp run
    obtain ⟨_, other, -⟩ := Builder.makeMoveVec_ok inside
    cases other

/-- Two sequences of bytes are of one type, whatever their lengths are. -/
theorem byteRows_typed :
    let rows := [PureValue.seq [.ofU8 7, .ofU8 8], .seq [.ofU8 9]]
    ∃ t, lower (.seq (rows.map .pure)) none empty = .ok (.input 0) t ∧
      t.builder.slots[0]? = some (.resolved (.pure [2, 2, 7, 8, 1, 9])) ∧
      (PureValue.seq rows).HasType (.vector (.vector .u8)) := by
  intro rows
  have row : ∀ bytes : List UInt8, (PureValue.seq (bytes.map .ofU8)).HasType (.vector .u8) := by
    intro bytes
    refine .seq fun v inside => ?_
    obtain ⟨byte, -, rfl⟩ := List.mem_map.mp inside
    exact .scalar (.u8 byte)
  have typed : ∀ v ∈ rows, v.typeTag? ≠ none ∧ ∃ s, v.HasType s := by
    intro v inside
    rcases List.mem_cons.mp inside with rfl | inside
    · exact ⟨nofun, _, row [7, 8]⟩
    · obtain rfl := List.mem_singleton.mp inside
      exact ⟨nofun, _, row [9]⟩
  obtain ⟨t, run⟩ : ∃ t, lower (.seq (rows.map .pure)) none empty = .ok (.input 0) t := ⟨_, rfl⟩
  have reachable : empty.builder.Reachable := Builder.reachable_empty
  obtain ⟨values, list, place, u, same, whole⟩ := sequence_typed reachable run
  obtain rfl : rows = values := Option.some.inj list
  obtain rfl : TypeTag.vector .u8 = u := same _ List.mem_cons_self nofun _ (row [7, 8])
  have bytes : (PureValue.seq rows).toBytes = [2, 2, 7, 8, 1, 9] := by cbv
  exact ⟨t, run, bytes ▸ place, whole typed⟩

/-- Numbers of two widths are taken within one item, and so are an empty sequence and an absent value as two
items. -/
theorem sequence_mixed :
    (∃ t values, lower (.seq [.seq [.pure (.ofU8 1), .pure (.ofU64 1)]]) none empty = .ok (.input 0) t ∧
      CallValue.asPureList? [.seq [.pure (.ofU8 1), .pure (.ofU64 1)]] none = some values ∧
      ¬ ∃ u, ∀ v ∈ values, v.HasType u) ∧
    ∃ t values, lower (.seq [.seq [], .absent]) none empty = .ok (.input 0) t ∧
      CallValue.asPureList? [.seq [], .absent] none = some values ∧
      ¬ ∃ u, ∀ v ∈ values, v.HasType u := by
  constructor
  · refine ⟨_, [.seq [.ofU8 1, .ofU64 1]], rfl, rfl, ?_⟩
    rintro ⟨u, typed⟩
    cases typed _ List.mem_cons_self with
    | @seq _ s each =>
      have byte : s = .u8 := (each _ List.mem_cons_self).eq_of_typeTag? rfl
      have word : s = .u64 := (each (.ofU64 1) (by simp)).eq_of_typeTag? rfl
      cases byte.symm.trans word
  · refine ⟨_, [.seq [], .absent], rfl, rfl, ?_⟩
    rintro ⟨u, typed⟩
    cases typed (.seq []) (by simp)
    cases typed .absent (by simp)

end Draft

end MoveTx
