/-!
# Steps that may fail

Reading, building and talking to the chain are all steps on a state that give a value or an error.
These lemmas take a step that succeeded apart into the steps it is made of.
-/

namespace MoveTx.Step

variable {ε σ α β : Type}

theorem bind_ok_iff {x : EStateM ε σ α} {f : α → EStateM ε σ β} {s t : σ} {b : β} :
    (x >>= f) s = .ok b t ↔ ∃ a u, x s = .ok a u ∧ f a u = .ok b t := by
  change (match x s with | .ok a u => f a u | .error e u => .error e u) = _ ↔ _
  cases x s with
  | ok a u =>
    constructor
    · exact fun h => ⟨a, u, rfl, h⟩
    · rintro ⟨_, _, same, h⟩
      cases same
      exact h
  | error e u => simp

theorem map_ok_iff {f : α → β} {x : EStateM ε σ α} {s t : σ} {b : β} :
    (f <$> x) s = .ok b t ↔ ∃ a, x s = .ok a t ∧ f a = b := by
  change (match x s with | .ok a u => EStateM.Result.ok (f a) u | .error e u => .error e u) = _ ↔ _
  cases x s with
  | ok a u =>
    constructor
    · intro h
      cases h
      exact ⟨a, rfl, rfl⟩
    · rintro ⟨_, same, rfl⟩
      cases same
      rfl
  | error e u => simp

theorem seqLeft_ok_iff {x : EStateM ε σ α} {y : EStateM ε σ β} {s t : σ} {a : α} :
    (x <* y) s = .ok a t ↔ ∃ u b, x s = .ok a u ∧ y u = .ok b t := by
  change (x >>= fun a => y >>= fun _ => pure a) s = _ ↔ _
  simp only [bind_ok_iff]
  constructor
  · rintro ⟨_, u, first, b, _, second, last⟩
    cases last
    exact ⟨u, b, first, second⟩
  · rintro ⟨u, b, first, second⟩
    exact ⟨a, u, first, b, t, second, rfl⟩

theorem pure_ok_iff {s t : σ} {a b : α} :
    (pure a : EStateM ε σ α) s = .ok b t ↔ a = b ∧ s = t := by
  change EStateM.Result.ok a s = _ ↔ _
  simp

theorem throw_ok_iff {s t : σ} {a : α} {e : ε} :
    (throw e : EStateM ε σ α) s = .ok a t ↔ False := by
  change EStateM.Result.error e s = _ ↔ _
  simp

theorem get_ok_iff {s t u : σ} : (get : EStateM ε σ σ) s = .ok t u ↔ t = s ∧ u = s := by
  change EStateM.Result.ok s s = _ ↔ _
  simp [eq_comm]

theorem set_ok_iff {s t u : σ} {a : PUnit} :
    (set t : EStateM ε σ PUnit) s = .ok a u ↔ u = t := by
  change EStateM.Result.ok PUnit.unit t = _ ↔ _
  simp [eq_comm]

/-! ### Steps that may have failed -/

/-- The state a step leaves, also when it fails. -/
def after : EStateM.Result ε σ α → σ
  | .ok _ s => s
  | .error _ s => s

/-- What a step gives, if it succeeds. -/
def value? : EStateM.Result ε σ α → Option α
  | .ok a _ => some a
  | .error _ _ => none

theorem map_value?_eq_some {r : EStateM.Result ε σ α} {f : α → β} {b : β}
    (given : (value? r).map f = some b) : ∃ a t, r = .ok a t ∧ f a = b := by
  cases r with
  | ok a t => exact ⟨a, t, rfl, Option.some.inj given⟩
  | error e t => cases given

theorem get_bind {f : σ → EStateM ε σ α} {s : σ} : (get >>= f) s = f s s :=
  rfl

theorem bind_of_ok {x : EStateM ε σ α} {f : α → EStateM ε σ β} {s t : σ} {a : α}
    (run : x s = .ok a t) : (x >>= f) s = f a t := by
  change (match x s with | .ok a u => f a u | .error e u => .error e u) = _
  rw [run]

theorem bind_of_error {x : EStateM ε σ α} {f : α → EStateM ε σ β} {s t : σ} {e : ε}
    (run : x s = .error e t) : (x >>= f) s = .error e t := by
  change (match x s with | .ok a u => f a u | .error e u => .error e u) = _
  rw [run]

theorem map_of_ok {f : α → β} {x : EStateM ε σ α} {s t : σ} {a : α} (run : x s = .ok a t) :
    (f <$> x) s = .ok (f a) t := by
  change (match x s with | .ok a u => EStateM.Result.ok (f a) u | .error e u => .error e u) = _
  rw [run]

theorem map_of_error {f : α → β} {x : EStateM ε σ α} {s t : σ} {e : ε} (run : x s = .error e t) :
    (f <$> x) s = .error e t := by
  change (match x s with | .ok a u => EStateM.Result.ok (f a) u | .error e u => .error e u) = _
  rw [run]

theorem bind_error_iff {x : EStateM ε σ α} {f : α → EStateM ε σ β} {s t : σ} {e : ε} :
    (x >>= f) s = .error e t ↔ x s = .error e t ∨ ∃ a u, x s = .ok a u ∧ f a u = .error e t := by
  change (match x s with | .ok a u => f a u | .error e u => .error e u) = _ ↔ _
  cases x s with
  | ok a u =>
    constructor
    · exact fun failed => Or.inr ⟨a, u, rfl, failed⟩
    · rintro (failed | ⟨_, _, same, failed⟩)
      · cases failed
      · cases same
        exact failed
  | error e' u => simp

theorem map_error_iff {f : α → β} {x : EStateM ε σ α} {s t : σ} {e : ε} :
    (f <$> x) s = .error e t ↔ x s = .error e t := by
  change (match x s with | .ok a u => EStateM.Result.ok (f a) u | .error e u => .error e u) = _ ↔ _
  cases x s with
  | ok a u => simp
  | error e' u => simp

theorem after_map {f : α → β} {x : EStateM ε σ α} {s : σ} : after ((f <$> x) s) = after (x s) := by
  cases run : x s with
  | ok a t =>
    rw [map_of_ok run]
    rfl
  | error e t =>
    rw [map_of_error run]
    rfl

/-- A step that fails and leaves the state as it is. -/
def Refuses (x : EStateM ε σ α) (s : σ) : Prop :=
  ∃ e, x s = .error e s

theorem refuses_bind {x : EStateM ε σ α} {f : α → EStateM ε σ β} {s : σ} (refused : Refuses x s) :
    Refuses (x >>= f) s := by
  obtain ⟨e, failed⟩ := refused
  exact ⟨e, bind_of_error failed⟩

theorem refuses_map {f : α → β} {x : EStateM ε σ α} {s : σ} (refused : Refuses x s) :
    Refuses (f <$> x) s := by
  obtain ⟨e, failed⟩ := refused
  exact ⟨e, map_of_error failed⟩

/-! ### Computations without a state -/

theorem except_bind_ok_iff {x : Except ε α} {f : α → Except ε β} {b : β} :
    (x >>= f) = .ok b ↔ ∃ a, x = .ok a ∧ f a = .ok b := by
  cases x with
  | error e =>
    change Except.error e = _ ↔ _
    simp
  | ok a =>
    change f a = _ ↔ _
    simp

theorem except_bind_error_iff {x : Except ε α} {f : α → Except ε β} {e : ε} :
    (x >>= f) = .error e ↔ x = .error e ∨ ∃ a, x = .ok a ∧ f a = .error e := by
  cases x with
  | error e' =>
    change Except.error e' = _ ↔ _
    simp
  | ok a =>
    change f a = _ ↔ _
    simp

theorem mapError_ok_iff {δ : Type} {f : ε → δ} {x : Except ε α} {a : α} :
    x.mapError f = .ok a ↔ x = .ok a := by
  cases x with
  | error e => exact iff_of_false nofun nofun
  | ok b =>
    change Except.ok b = Except.ok a ↔ _
    simp

/-- All of a list of computations succeed when each of them does. -/
theorem mapM_ok_iff {f : α → Except ε β} {xs : List α} {ys : List β} :
    xs.mapM f = .ok ys ↔ xs.map f = ys.map Except.ok := by
  induction xs generalizing ys with
  | nil =>
    change Except.ok [] = Except.ok ys ↔ _
    simp [eq_comm]
  | cons x rest ih =>
    rw [List.mapM_cons, List.map_cons]
    cases first : f x with
    | error e =>
      change Except.error e = _ ↔ _
      cases ys <;> simp
    | ok y =>
      cases others : rest.mapM f with
      | error e =>
        have none : ∀ zs : List β, rest.map f ≠ zs.map Except.ok := by
          intro zs all
          rw [ih.mpr all] at others
          cases others
        change Except.error e = _ ↔ _
        cases ys <;> simp [none]
      | ok zs =>
        change Except.ok (y :: zs) = _ ↔ _
        rw [ih.mp others]
        cases ys with
        | nil => simp
        | cons y' ys =>
          simp [List.map_inj_right (fun _ _ => Except.ok.inj)]

/-- What the computations give, each with the member of the list it belongs to. -/
theorem mapM_ok_pairs {f : α → Except ε β} {xs : List α} {ys : List β} (all : xs.mapM f = .ok ys) :
    ∃ pairs : List (α × β), xs = pairs.map (·.1) ∧ ys = pairs.map (·.2) ∧
      ∀ pair ∈ pairs, f pair.1 = .ok pair.2 := by
  have same := mapM_ok_iff.mp all
  clear all
  induction xs generalizing ys with
  | nil =>
    obtain rfl : ys = [] := List.map_eq_nil_iff.mp same.symm
    exact ⟨[], rfl, rfl, nofun⟩
  | cons x rest ih =>
    cases ys with
    | nil => cases same
    | cons y ys =>
      obtain ⟨first, later⟩ := List.cons.inj same
      obtain ⟨pairs, rfl, rfl, each⟩ := ih later
      exact ⟨(x, y) :: pairs, rfl, rfl, List.forall_mem_cons.mpr ⟨first, each⟩⟩

theorem exists_mapM_ok {f : α → Except ε β} {xs : List α} (each : ∀ x ∈ xs, ∃ y, f x = .ok y) :
    ∃ ys, xs.mapM f = .ok ys := by
  induction xs with
  | nil => exact ⟨[], rfl⟩
  | cons x rest ih =>
    obtain ⟨⟨y, first⟩, others⟩ := List.forall_mem_cons.mp each
    obtain ⟨ys, later⟩ := ih others
    refine ⟨y :: ys, mapM_ok_iff.mpr ?_⟩
    rw [List.map_cons, List.map_cons, first, mapM_ok_iff.mp later]

theorem mapM_error {f : α → Except ε β} {xs : List α} {e : ε}
    (failed : xs.mapM f = .error e) : ∃ x ∈ xs, f x = .error e := by
  induction xs with
  | nil => cases failed
  | cons x rest ih =>
    rw [List.mapM_cons] at failed
    rcases except_bind_error_iff.mp failed with first | ⟨y, -, later⟩
    · exact ⟨x, List.mem_cons_self, first⟩
    · rcases except_bind_error_iff.mp later with others | ⟨ys, -, done⟩
      · obtain ⟨x', inside, refused⟩ := ih others
        exact ⟨x', List.mem_cons_of_mem x inside, refused⟩
      · cases done

theorem guard_ok_iff {p : Prop} [Decidable p] {e : ε} :
    (if p then .ok () else .error e : Except ε Unit) = .ok () ↔ p := by
  by_cases good : p <;> simp [good]

theorem guard_error_iff {p : Prop} [Decidable p] {e e' : ε} :
    (if p then .ok () else .error e : Except ε Unit) = .error e' ↔ ¬ p ∧ e = e' := by
  by_cases good : p <;> simp [good]

theorem forM_ok_iff {f : α → Except ε Unit} {xs : List α} :
    xs.forM f = .ok () ↔ ∀ x ∈ xs, f x = .ok () := by
  induction xs with
  | nil =>
    change Except.ok () = Except.ok () ↔ _
    simp
  | cons x rest ih =>
    change (f x >>= fun _ => rest.forM f) = _ ↔ _
    rw [except_bind_ok_iff, ih, List.forall_mem_cons]
    constructor
    · rintro ⟨_, first, others⟩
      exact ⟨first, others⟩
    · rintro ⟨first, others⟩
      exact ⟨(), first, others⟩

/-- A loop fails as its first body does that fails. -/
theorem forM_error_iff {f : α → Except ε Unit} {xs : List α} {e : ε} :
    xs.forM f = .error e ↔ ∃ before x later, xs = before ++ x :: later ∧
      (∀ b ∈ before, f b = .ok ()) ∧ f x = .error e := by
  induction xs with
  | nil =>
    refine iff_of_false nofun ?_
    rintro ⟨before, x, later, split, -⟩
    cases before <;> cases split
  | cons y rest ih =>
    change (f y >>= fun _ => rest.forM f) = _ ↔ _
    rw [except_bind_error_iff, ih]
    constructor
    · rintro (here | ⟨_, passed, before, x, later, rfl, good, failed⟩)
      · exact ⟨[], y, rest, rfl, nofun, here⟩
      · exact ⟨y :: before, x, later, rfl, List.forall_mem_cons.mpr ⟨passed, good⟩, failed⟩
    · rintro ⟨before, x, later, split, good, failed⟩
      cases before with
      | nil =>
        obtain ⟨rfl, rfl⟩ := List.cons.inj split
        exact Or.inl failed
      | cons b before =>
        obtain ⟨rfl, rfl⟩ := List.cons.inj split
        obtain ⟨passed, good⟩ := List.forall_mem_cons.mp good
        exact Or.inr ⟨(), passed, before, x, later, rfl, good, failed⟩

end MoveTx.Step
