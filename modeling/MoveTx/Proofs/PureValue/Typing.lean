import MoveTx.PureValue

/-!
# Types of pure values

A value has a type when all of its parts have the types that it takes. An empty sequence and an absent
value have many types. The tag of a value, where it shows one, is the only type that it can have, but a
value with a tag need not have a type.
-/

namespace MoveTx.PureValue

/-- The values of each type. -/
inductive HasType : PureValue → TypeTag → Prop
  | scalar (s : Scalar) : HasType (.scalar s) s.typeTag
  | seq {items : List PureValue} {t : TypeTag} (each : ∀ item ∈ items, HasType item t) :
      HasType (.seq items) (.vector t)
  | absent (t : TypeTag) : HasType .absent (StructTag.option t).toTypeTag
  | present {v : PureValue} {t : TypeTag} (inside : HasType v t) :
      HasType (.present v) (StructTag.option t).toTypeTag

variable {v : PureValue} {t u : TypeTag}

/-- A value of a type shows no other type. -/
theorem HasType.eq_of_typeTag? (typed : HasType v t) (shown : v.typeTag? = some u) : t = u := by
  induction typed generalizing u with
  | scalar s => exact Option.some.inj shown
  | @seq items t each ih =>
    cases items with
    | nil => cases shown
    | cons item rest =>
      -- Only the first item is asked, which is as good as any other here.
      obtain ⟨first, shownFirst, rfl⟩ := Option.map_eq_some_iff.mp shown
      rw [ih item List.mem_cons_self shownFirst]
  | absent t => cases shown
  | present inside ih =>
    obtain ⟨w, shownInside, rfl⟩ := Option.map_eq_some_iff.mp shown
    rw [ih shownInside]

end MoveTx.PureValue
