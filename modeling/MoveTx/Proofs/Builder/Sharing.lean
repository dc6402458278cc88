import Mathlib.Data.Finset.Card
import MoveTx.Proofs.Builder.Scope

/-!
# Shared inputs

Two admissions of a run share an input exactly when they bring in the same thing: the same pure bytes of
the same origin, or the same object. An input that is to stand alone is never shared, unless its number
comes round again.
-/

namespace MoveTx
open Step

/-- What an admission brings in. -/
inductive Admitted
  | pure (value : PureBytes)
  | object (id : Address)
  /-- Pure bytes that stand alone. -/
  | alone

/-- The key of what is brought in when `nonce` is the number of the next input that stands alone. -/
def Admitted.key (nonce : UInt64) : Admitted → InputKey
  | pure value => .pure value.bytes value.origin
  | object id => .object id
  | alone => .unique nonce

/-- Only what stands alone has another key under another number. -/
theorem Admitted.key_eq_iff {m n : UInt64} {x y : Admitted} (later : x = .alone → y = .alone → m ≠ n) :
    x.key m = y.key n ↔ x = y ∧ x ≠ .alone := by
  cases x with
  | pure value =>
    cases y with
    | pure other =>
      obtain ⟨bytes, origin⟩ := value
      obtain ⟨bytes', origin'⟩ := other
      simp [key]
    | object | alone => simp [key]
  | object id => cases y <;> simp [key]
  | alone =>
    cases y with
    | pure | object => simp [key]
    | alone => simp [key, later rfl rfl]

namespace BuilderOp

variable {op : BuilderOp} {b : Builder}

def admits? : BuilderOp → Option Admitted
  | pure value => some (.pure value.encoded)
  | pureBytes value => some (.pure value)
  | uniquePure _ => some .alone
  | object arg => some (.object arg.id)
  | objectId id => some (.object id)
  | _ => none

/-- The keys that a sequence of operations admits, from a builder on, as often as it admits them. -/
def admittedKeys (b : Builder) : List BuilderOp → List InputKey
  | [] => []
  | op :: rest => (op.admittedKey? b).toList ++ admittedKeys (op.next b) rest

theorem key?_eq (op : BuilderOp) (b : Builder) :
    op.key? b = op.admits?.map (Admitted.key b.nonce) := by
  cases op <;> rfl

theorem standsAlone_iff : op.standsAlone = true ↔ op.admits? = some .alone := by
  cases op <;> simp [standsAlone, admits?]

theorem handle_kind (h : b.WellFormed) {a : Argument} (given : op.handle? b = some a) :
    (op.admits? ≠ none ∧ ∃ i, a = .input i) ∨ (op.admits? = none ∧ ∃ j, a = .result j) := by
  have outcome := step_outcome h op
  rw [handle?_eq_some_iff.mp given] at outcome
  generalize op.next b = c at outcome
  cases outcome with
  | admitted key _ _ names admission =>
    obtain ⟨i, same, -⟩ := admission.handle
    refine Or.inl ⟨?_, _, same⟩
    intro none
    rw [key?_eq, none] at names
    cases names
  | appended c names room =>
    refine Or.inr ⟨?_, _, rfl⟩
    cases op <;> first | rfl | cases names

/-- The key of a successful admission is found at its handle from then on. -/
theorem admitted_place (h : b.WellFormed) {a : Argument} {x : Admitted}
    (given : op.handle? b = some a) (admits : op.admits? = some x) :
    ∃ i : UInt16, a = .input i ∧ (op.next b).keys[i.toNat]? = some (x.key b.nonce) := by
  rcases handle_kind h given with ⟨-, i, rfl⟩ | ⟨none, -⟩
  · obtain ⟨key, names, place⟩ := input_place h (answer_ok_iff.mpr (handle?_eq_some_iff.mp given))
    rw [key?_eq, admits] at names
    obtain rfl := Option.some.inj names
    exact ⟨i, rfl, place⟩
  · cases none.symm.trans admits

/-- An admission that succeeded as a step has its key at its handle. -/
theorem run_place (op : BuilderOp) (h : b.WellFormed) {x : BuilderStep Argument} {y : Admitted}
    {a : Argument} {c : Builder} (made : op.step = .handle <$> x) (admits : op.admits? = some y)
    (run : x b = .ok a c) : ∃ i : UInt16, a = .input i ∧ c.keys[i.toNat]? = some (y.key b.nonce) := by
  have next : op.next b = c := next_eq made run
  have given : op.handle? b = some a := by
    rw [handle?_eq_some_iff, next, made]
    exact map_of_ok run
  rw [← next]
  exact admitted_place h given admits

theorem alone_nonce {a : Argument} (given : op.handle? b = some a) (alone : op.standsAlone = true) :
    (op.next b).nonce = b.nonce + 1 := by
  have run := handle?_eq_some_iff.mp given
  cases op with
  | uniquePure value =>
    cases closed : b.finalized with
    | true => cases (map_of_error (Builder.closed_run closed)).symm.trans run
    | false => exact uniquePure_nonce closed value
  | _ => cases alone

/-- Of two inputs that stand alone, the later has another number if fewer than all came between. -/
theorem nonce_ne (h : b.WellFormed) {first : BuilderOp} {between : List BuilderOp} {c : Builder}
    (reached : c = between.foldl (fun b op => op.next b) (first.next b)) {a : Argument}
    (given : first.handle? b = some a) (alone : first.standsAlone = true)
    (counted : between.countP standsAlone + 1 < UInt64.size) : b.nonce ≠ c.nonce := by
  obtain ⟨count, bound, numbered⟩ := foldl_numbered between (next_keeps h first).1
  rw [← reached] at numbered
  have raised : c.nonce = b.nonce + UInt64.ofNat (count + 1) := by
    rw [numbered.nonce, alone_nonce given alone, UInt64.add_assoc, Nat.add_comm, UInt64.ofNat_add]
    rfl
  rw [raised, ne_eq, UInt64.left_eq_add, ← UInt64.toNat_inj, UInt64.toNat_ofNat_of_lt' (by omega)]
  exact Nat.succ_ne_zero count

/-- Two admissions share an input exactly when they bring in the same, which does not stand alone. -/
theorem handles_eq_iff (h : b.WellFormed) {first second : BuilderOp} {between : List BuilderOp}
    {c : Builder} (reached : c = between.foldl (fun b op => op.next b) (first.next b))
    (counted : first.standsAlone → second.standsAlone → between.countP standsAlone + 1 < UInt64.size)
    {a a' : Argument} {x y : Admitted} (given : first.handle? b = some a)
    (given' : second.handle? c = some a') (admits : first.admits? = some x)
    (admits' : second.admits? = some y) : a = a' ↔ x = y ∧ x ≠ .alone := by
  obtain ⟨wellFormed, -⟩ := next_keeps h first
  obtain ⟨wellFormed', ext⟩ := foldl_keeps between wellFormed
  rw [← reached] at wellFormed' ext
  obtain ⟨last, ext'⟩ := next_keeps wellFormed' second
  obtain ⟨i, rfl, place⟩ := admitted_place h given admits
  obtain ⟨j, rfl, place'⟩ := admitted_place wellFormed' given' admits'
  have place := Builder.getElem?_of_prefix (ext.trans ext').keys place
  have later : x = .alone → y = .alone → b.nonce ≠ c.nonce := by
    rintro rfl rfl
    have alone := standsAlone_iff.mpr admits
    exact nonce_ne h reached given alone (counted alone (standsAlone_iff.mpr admits'))
  rw [← Admitted.key_eq_iff later, Argument.input.injEq]
  -- Places of keys are their own, since no key occurs twice.
  constructor
  · rintro rfl
    exact Option.some.inj (place.symm.trans place')
  · intro same
    rw [← same] at place'
    have inside := (List.getElem?_eq_some_iff.mp place).1
    exact UInt16.toNat.inj ((List.getElem?_inj inside last.keys_nodup).mp (place.trans place'.symm))

theorem alone_handles_ne (h : b.WellFormed) {first second : BuilderOp} {between : List BuilderOp}
    {c : Builder} (reached : c = between.foldl (fun b op => op.next b) (first.next b))
    (counted : first.standsAlone → second.standsAlone → between.countP standsAlone + 1 < UInt64.size)
    {a a' : Argument} (given : first.handle? b = some a) (given' : second.handle? c = some a')
    (alone : first.admits? = some .alone ∨ second.admits? = some .alone) : a ≠ a' := by
  have wellFormed' : c.WellFormed := reached ▸ (foldl_keeps between (next_keeps h first).1).1
  rintro rfl
  rcases handle_kind h given with ⟨admits, i, rfl⟩ | ⟨none, j, rfl⟩
  · rcases handle_kind wellFormed' given' with ⟨admits', -⟩ | ⟨-, j, other⟩
    · obtain ⟨x, admits⟩ := Option.ne_none_iff_exists'.mp admits
      obtain ⟨y, admits'⟩ := Option.ne_none_iff_exists'.mp admits'
      obtain ⟨rfl, shared⟩ := (handles_eq_iff h reached counted given given' admits admits').mp rfl
      rcases alone with alone | alone
      · exact shared (Option.some.inj (admits.symm.trans alone))
      · exact shared (Option.some.inj (admits'.symm.trans alone))
    · cases other
  · rcases handle_kind wellFormed' given' with ⟨-, i, other⟩ | ⟨none', -⟩
    · cases other
    · rcases alone with alone | alone
      · cases none.symm.trans alone
      · cases none'.symm.trans alone

/-! ### Counting inputs -/

theorem mem_foldl_keys (ops : List BuilderOp) (h : b.WellFormed) (key : InputKey) :
    key ∈ (ops.foldl (fun b op => op.next b) b).keys ↔ key ∈ b.keys ∨ key ∈ admittedKeys b ops := by
  induction ops generalizing b with
  | nil => simp [admittedKeys]
  | cons op rest ih =>
    rw [List.foldl_cons, ih (next_keeps h op).1, mem_next_keys h op]
    simp [admittedKeys, or_assoc]

theorem run_inputs_length (ops : List BuilderOp) :
    (run ops).inputs.length = (admittedKeys .empty ops).toFinset.card := by
  have distinct := (run_wellFormed ops).keys_nodup
  have same : (run ops).keys.toFinset = (admittedKeys .empty ops).toFinset := by
    ext key
    rw [List.mem_toFinset, List.mem_toFinset]
    have absent : key ∉ Builder.empty.keys := List.not_mem_nil
    exact (mem_foldl_keys ops Builder.wellFormed_empty key).trans (or_iff_right absent)
  calc (run ops).inputs.length = (run ops).keys.length := (List.length_map _).symm
    _ = (run ops).keys.toFinset.card := (List.toFinset_card_of_nodup distinct).symm
    _ = (admittedKeys .empty ops).toFinset.card := by rw [same]

/-- Sharing is exact. Of two handles of inputs in a run, the later is the earlier one exactly when both
admissions brought in the same, which did not stand alone. What stands alone has a handle unlike any
other. Among those that stand alone this holds as long as the run has no more such operations than there
are words to number them. There are as many inputs as keys that were admitted. -/
theorem run_sharing (ops : List BuilderOp) :
    (∀ (before between later : List BuilderOp) (first second : BuilderOp),
      ops = before ++ first :: (between ++ second :: later) →
        (first.standsAlone → second.standsAlone → ops.countP standsAlone ≤ UInt64.size) →
        ∀ a a', first.handle? (run before) = some a →
          second.handle? (run (before ++ first :: between)) = some a' →
            (∀ x y, first.admits? = some x → second.admits? = some y →
              (a = a' ↔ x = y ∧ x ≠ .alone)) ∧
            (first.admits? = some .alone ∨ second.admits? = some .alone → a ≠ a')) ∧
      (run ops).inputs.length = (admittedKeys .empty ops).toFinset.card := by
  refine ⟨?_, run_inputs_length ops⟩
  intro before between later first second split counted a a' given given'
  have wellFormed := run_wellFormed before
  have reached := run_append before (first :: between)
  rw [List.foldl_cons] at reached
  have counted : first.standsAlone → second.standsAlone → between.countP standsAlone + 1 < UInt64.size := by
    intro alone alone'
    have total := counted alone alone'
    simp only [split, List.countP_append, List.countP_cons, alone, alone', if_true] at total
    omega
  constructor
  · intro x y admits admits'
    exact handles_eq_iff wellFormed reached counted given given' admits admits'
  · exact alone_handles_ne wellFormed reached counted given given'

/-- Admits an object by its id and by its reference, and the same bytes to be shared and to stand alone. -/
def admitsTwice : List BuilderOp :=
  [.pureBytes ⟨[7, 0], .integer⟩, .objectId .clock, .uniquePure ⟨[7, 0], .integer⟩,
    .object (.shared ⟨.clock, 1, false⟩)]

theorem admitsTwice_sharing :
    (∃ a, handle? (.objectId .clock) (run (admitsTwice.take 1)) = some a ∧
      handle? (.object (.shared ⟨.clock, 1, false⟩)) (run (admitsTwice.take 3)) = some a) ∧
      (∃ a a', handle? (.pureBytes ⟨[7, 0], .integer⟩) (run []) = some a ∧
        handle? (.uniquePure ⟨[7, 0], .integer⟩) (run (admitsTwice.take 2)) = some a' ∧ a ≠ a') ∧
        (∃ a a', handle? (.uniquePure ⟨[7, 0], .integer⟩) (run (admitsTwice.take 2)) = some a ∧
          handle? (.uniquePure ⟨[7, 0], .integer⟩) (run admitsTwice) = some a' ∧ a ≠ a') ∧
        (run admitsTwice).inputs.length = 3 := by
  obtain ⟨sharing, counts⟩ := run_sharing admitsTwice
  refine ⟨⟨.input 1, rfl, ?_⟩, ⟨.input 0, .input 2, rfl, rfl, ?_⟩, ⟨.input 2, .input 3, rfl, rfl, ?_⟩, ?_⟩
  · obtain ⟨a, given⟩ : ∃ a, handle? (.object (.shared ⟨.clock, 1, false⟩))
        (run (admitsTwice.take 3)) = some a := ⟨_, rfl⟩
    obtain ⟨shared, -⟩ := sharing (admitsTwice.take 1) [.uniquePure ⟨[7, 0], .integer⟩] []
      (.objectId .clock) _ rfl nofun (.input 1) a rfl given
    obtain rfl := (shared _ _ rfl rfl).mpr ⟨rfl, nofun⟩
    exact given
  · obtain ⟨-, distinct⟩ := sharing [] [.objectId .clock] (admitsTwice.drop 3)
      (.pureBytes ⟨[7, 0], .integer⟩) (.uniquePure ⟨[7, 0], .integer⟩) rfl nofun _ _ rfl rfl
    exact distinct (.inr rfl)
  · have twice : List.countP standsAlone (admitsTwice ++ [.uniquePure ⟨[7, 0], .integer⟩]) ≤ UInt64.size := by
      decide
    obtain ⟨sharing, -⟩ := run_sharing (admitsTwice ++ [.uniquePure ⟨[7, 0], .integer⟩])
    obtain ⟨-, distinct⟩ := sharing (admitsTwice.take 2) (admitsTwice.drop 3) []
      (.uniquePure ⟨[7, 0], .integer⟩) (.uniquePure ⟨[7, 0], .integer⟩) rfl (fun _ _ => twice) _ _ rfl rfl
    exact distinct (.inl rfl)
  · rw [counts]
    decide

end BuilderOp

end MoveTx
