import MoveTx.Proofs.Step
import MoveTx.Transaction.Validation

/-!
# What the checks of a transaction accept

The check of references accepts a list of commands when it accepts every argument at its place. The
whole check accepts a transaction when the references are good and the bounds are kept.
-/

namespace MoveTx
open Step

namespace Argument

/-- More inputs do no harm to an argument. -/
theorem check_mono {index count count' : Nat} {a : Argument} (le : count ≤ count')
    (good : a.check index count = .ok ()) : a.check index count' = .ok () := by
  cases a with
  | gasCoin => rfl
  | result j | nestedResult j k => exact good
  | input i =>
    simp only [check] at good ⊢
    split at good
    · rename_i below
      rw [if_pos (Nat.lt_of_lt_of_le below le)]
    · cases good

end Argument

theorem checkCommands_cons {count index : Nat} {c : Command} {rest : List Command} :
    checkCommands count index (c :: rest) = .ok () ↔
      (∀ a ∈ c.arguments, a.check index count = .ok ()) ∧
        checkCommands count (index + 1) rest = .ok () := by
  change (c.arguments.forM (Argument.check index count) >>= fun _ =>
    checkCommands count (index + 1) rest) = _ ↔ _
  rw [except_bind_ok_iff, ← forM_ok_iff]
  constructor
  · rintro ⟨_, first, others⟩
    exact ⟨first, others⟩
  · rintro ⟨first, others⟩
    exact ⟨(), first, others⟩

theorem checkCommands_ok_iff {count index : Nat} {commands : List Command} :
    checkCommands count index commands = .ok () ↔
      ∀ (n : Nat) (c : Command), commands[n]? = some c →
        ∀ a ∈ c.arguments, a.check (index + n) count = .ok () := by
  induction commands generalizing index with
  | nil =>
    change Except.ok () = Except.ok () ↔ _
    simp
  | cons c rest ih =>
    rw [checkCommands_cons, ih]
    constructor
    · rintro ⟨head, tail⟩ n c' place
      cases n with
      | zero =>
        obtain rfl := Option.some.inj place
        exact head
      | succ n =>
        have good := tail n c' place
        rwa [Nat.add_right_comm, Nat.add_assoc] at good
    · intro all
      refine ⟨all 0 c rfl, ?_⟩
      intro n c' place
      have good := all (n + 1) c' place
      rwa [← Nat.add_assoc, Nat.add_right_comm] at good

/-- The arguments of a command are checked where it stands. -/
theorem checkCommands_concat {count : Nat} {commands : List Command} {c : Command} :
    checkCommands count 0 (commands ++ [c]) = .ok () ↔
      checkCommands count 0 commands = .ok () ∧
        ∀ a ∈ c.arguments, a.check commands.length count = .ok () := by
  simp only [checkCommands_ok_iff, Nat.zero_add]
  constructor
  · intro all
    constructor
    · intro n c' place
      apply all n c'
      rw [List.getElem?_append_left (List.getElem?_eq_some_iff.mp place).1, place]
    · exact all commands.length c List.getElem?_concat_length
  · rintro ⟨earlier, last⟩ n c' place
    rcases Nat.lt_or_ge n commands.length with below | beyond
    · rw [List.getElem?_append_left below] at place
      exact earlier n c' place
    · rw [List.getElem?_append_right beyond, List.getElem?_singleton] at place
      split at place
      · rename_i here
        obtain rfl := Option.some.inj place
        rw [Nat.le_antisymm (Nat.sub_eq_zero_iff_le.mp here) beyond]
        exact last
      · cases place

theorem checkCommands_mono {count count' : Nat} {commands : List Command} (le : count ≤ count')
    (good : checkCommands count 0 commands = .ok ()) : checkCommands count' 0 commands = .ok () := by
  rw [checkCommands_ok_iff] at good ⊢
  exact fun n c place a inside => Argument.check_mono le (good n c place a inside)

namespace ProgrammableTransaction

theorem not_isOversized_iff {t : ProgrammableTransaction} :
    t.inputs.any isOversized = false ↔
      ∀ bytes, CallArg.pure bytes ∈ t.inputs → bytes.length ≤ maxPureBytes := by
  rw [List.any_eq_false]
  constructor
  · intro all bytes inside
    have small := all _ inside
    simpa [isOversized] using small
  · intro all arg inside
    cases arg with
    | pure bytes => simpa [isOversized] using all bytes inside
    | object arg => simp [isOversized]

theorem validate_ok_iff {t : ProgrammableTransaction} :
    t.validate = .ok () ↔
      t.commands ≠ [] ∧ t.commands.length ≤ maxCommands ∧ t.inputs.length ≤ maxInputs ∧
        (∀ bytes, CallArg.pure bytes ∈ t.inputs → bytes.length ≤ maxPureBytes) ∧
          t.checkReferences = .ok () := by
  rw [← not_isOversized_iff, ne_eq, ← List.isEmpty_iff, ← Nat.not_lt, ← Nat.not_lt]
  unfold validate
  split
  · simp [*]
  · split
    · simp [*]
    · split
      · simp [*]
      · split
        · simp [*]
        · simp [*]

/-- Good references leave only the bounds to fail. -/
theorem validate_error {t : ProgrammableTransaction} {e : BuilderError}
    (linked : t.checkReferences = .ok ()) (failed : t.validate = .error e) :
    e = .emptyCommands ∨ ∃ limit, e = .limitExceeded limit := by
  unfold validate at failed
  rw [linked] at failed
  split at failed
  · exact Or.inl (Except.error.inj failed).symm
  · refine Or.inr ?_
    split at failed
    · exact ⟨_, (Except.error.inj failed).symm⟩
    · split at failed
      · exact ⟨_, (Except.error.inj failed).symm⟩
      · split at failed
        · exact ⟨_, (Except.error.inj failed).symm⟩
        · cases failed

end ProgrammableTransaction

end MoveTx
