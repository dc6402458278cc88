import MoveTx.Proofs.Builder.Scope
import MoveTx.Proofs.Transaction.Binary

/-!
# Reading a finalized transaction back

Finalizing keeps every bound on inputs and commands that the reader of transactions asks for, but does
not look at types. What is finalized is read back exactly when no type in it is nested too deep.
-/

namespace MoveTx
open Step

/-- A list of what can always be read is readable when it is not too long. -/
theorem readable_list_iff {α : Type} [Codec α] [Readable α] (always : ∀ a : α, readable a) {as : List α} :
    readable as ↔ as.length ≤ maxSequenceLength :=
  and_iff_left fun a _ => always a

namespace Command

/-- The types in a command. -/
def types : Command → List TypeTag
  | moveCall call => call.typeArguments
  | makeMoveVec elementType _ => elementType.toList
  | _ => []

/-- Whether every list, byte string and name in a command fits a length prefix. -/
def IsShort : Command → Prop
  | moveCall call =>
    readable call.module ∧ readable call.function ∧ call.typeArguments.length ≤ maxSequenceLength ∧
      (∀ t ∈ call.typeArguments, t.IsShort) ∧ call.arguments.length ≤ maxSequenceLength
  | transferObjects objects _ => objects.length ≤ maxSequenceLength
  | splitCoins _ amounts => amounts.length ≤ maxSequenceLength
  | mergeCoins _ sources => sources.length ≤ maxSequenceLength
  | publish modules dependencies =>
    modules.length ≤ maxSequenceLength ∧ (∀ code ∈ modules, code.length ≤ maxSequenceLength) ∧
      dependencies.length ≤ maxSequenceLength
  | makeMoveVec elementType elements =>
    (∀ t ∈ elementType, t.IsShort) ∧ elements.length ≤ maxSequenceLength
  | upgrade modules dependencies _ _ =>
    modules.length ≤ maxSequenceLength ∧ (∀ code ∈ modules, code.length ≤ maxSequenceLength) ∧
      dependencies.length ≤ maxSequenceLength

theorem readable_iff {c : Command} :
    readable c ↔ c.IsShort ∧ ∀ t ∈ c.types, t.depth ≤ TypeTag.maxDepth := by
  have arguments (xs : List Argument) : readable xs ↔ xs.length ≤ maxSequenceLength :=
    readable_list_iff fun _ => trivial
  have addresses (xs : List Address) : readable xs ↔ xs.length ≤ maxSequenceLength :=
    readable_list_iff fun _ => trivial
  have code (bs : Bytes) : readable bs ↔ bs.length ≤ maxSequenceLength :=
    readable_list_iff fun _ => trivial
  have modules (ms : List Bytes) : readable ms ↔
      ms.length ≤ maxSequenceLength ∧ ∀ m ∈ ms, m.length ≤ maxSequenceLength := by
    change _ ∧ (∀ m ∈ ms, readable m) ↔ _
    simp only [code]
  have typed (t : TypeTag) : readable t ↔ t.depth ≤ TypeTag.maxDepth ∧ t.IsShort := Iff.rfl
  have none : ∀ t ∈ ([] : List TypeTag), t.depth ≤ TypeTag.maxDepth := nofun
  cases c with
  | transferObjects xs a | splitCoins a xs | mergeCoins a xs =>
    exact (arguments xs).trans (and_iff_left none).symm
  | publish ms ds | upgrade ms ds p a =>
    refine (and_congr (modules ms) (addresses ds)).trans ?_
    rw [and_assoc]
    exact (and_iff_left none).symm
  | makeMoveVec elementType elements =>
    change (∀ t ∈ elementType, readable t) ∧ readable elements ↔
      ((∀ t ∈ elementType, t.IsShort) ∧ elements.length ≤ maxSequenceLength) ∧
        ∀ t ∈ elementType.toList, t.depth ≤ TypeTag.maxDepth
    simp only [arguments, typed, Option.mem_toList]
    constructor
    · intro ⟨all, few⟩
      exact ⟨⟨fun t inside => (all t inside).2, few⟩, fun t inside => (all t inside).1⟩
    · intro ⟨⟨short, few⟩, shallow⟩
      exact ⟨fun t inside => ⟨shallow t inside, short t inside⟩, few⟩
  | moveCall call =>
    change readable call.module ∧ readable call.function ∧
        (call.typeArguments.length ≤ maxSequenceLength ∧ ∀ t ∈ call.typeArguments, readable t) ∧
          readable call.arguments ↔ _
    simp only [arguments, typed, IsShort, types]
    constructor
    · intro ⟨named, named', ⟨count, all⟩, few⟩
      exact ⟨⟨named, named', count, fun t inside => (all t inside).2, few⟩,
        fun t inside => (all t inside).1⟩
    · intro ⟨⟨named, named', count, short, few⟩, shallow⟩
      exact ⟨named, named', ⟨count, fun t inside => ⟨shallow t inside, short t inside⟩⟩, few⟩

end Command

namespace ProgrammableTransaction

/-- Every type that a transaction names. -/
def types (t : ProgrammableTransaction) : List TypeTag :=
  t.commands.flatMap Command.types

/-- A valid transaction keeps the bounds of the reader but for what is inside its commands. -/
theorem readable_iff_of_validate {t : ProgrammableTransaction} (valid : t.validate = .ok ())
    (short : ∀ c ∈ t.commands, c.IsShort) :
    readable t ↔ ∀ type ∈ t.types, type.depth ≤ TypeTag.maxDepth := by
  obtain ⟨-, commands, inputs, bytes, -⟩ := validate_ok_iff.mp valid
  have bounds : maxCommands ≤ maxSequenceLength ∧ maxInputs ≤ maxSequenceLength ∧
      maxPureBytes ≤ maxSequenceLength := by decide
  have readableInputs : readable t.inputs := by
    refine ⟨Nat.le_trans inputs bounds.2.1, fun arg inside => ?_⟩
    cases arg with
    | pure bs => exact Nat.le_trans (bytes bs inside) bounds.2.2
    | object arg => trivial
  have count : t.commands.length ≤ maxSequenceLength := Nat.le_trans commands bounds.1
  constructor
  · intro inside type named
    obtain ⟨c, member, here⟩ := List.mem_flatMap.mp named
    exact (Command.readable_iff.mp (inside.2.2 c member)).2 type here
  · intro shallow
    refine ⟨readableInputs, count, fun c member => Command.readable_iff.mpr ⟨short c member, ?_⟩⟩
    exact fun type here => shallow type (List.mem_flatMap.mpr ⟨c, member, here⟩)

end ProgrammableTransaction

namespace BuilderOp

/-- What a run finalizes is read back from its binary form exactly when no type that the run put into a
command is nested deeper than the reader goes. Nothing else can be in the way but commands with lists or
names that are too long for a length prefix. -/
theorem finalize_readBack {ops : List BuilderOp} {t : ProgrammableTransaction}
    (answered : answer .finalize (run ops) = .ok (.transaction t))
    (short : ∀ c ∈ t.commands, c.IsShort) :
    t.commands = appended .empty ops ∧
      (Codec.decodeAll (encode t) = .ok t ↔
        ∀ type ∈ t.types, type.depth ≤ TypeTag.maxDepth) := by
  obtain ⟨-, taken, valid, -⟩ := finalize_ok answered
  have commands : t.commands = appended .empty ops := by
    rw [(Builder.snapshot_ok taken).2, run_commands]
  refine ⟨commands, ?_⟩
  rw [decodeAll_ok_iff, and_iff_left rfl]
  exact ProgrammableTransaction.readable_iff_of_validate valid short

/-- Vectors of vectors of bytes, to a depth. -/
def vectors : Nat → TypeTag
  | 0 => .u8
  | depth + 1 => .vector (vectors depth)

theorem isShort_vectors (depth : Nat) : (vectors depth).IsShort := by
  induction depth with
  | zero => trivial
  | succ depth ih => exact ih

/-- The transaction that only makes an empty vector. -/
def emptyVector (type : TypeTag) : ProgrammableTransaction :=
  ⟨[], [.makeMoveVec (some type) []]⟩

theorem emptyVector_isShort (depth : Nat) : ∀ c ∈ (emptyVector (vectors depth)).commands, c.IsShort := by
  have here : ∀ t ∈ some (vectors depth), t.IsShort := by
    intro t inside
    obtain rfl := Option.some.inj inside
    exact isShort_vectors depth
  exact List.forall_mem_singleton.mpr ⟨here, Nat.zero_le _⟩

theorem vectors_readBack :
    answer .finalize (run [.makeMoveVec (some (vectors 64)) []]) =
        .ok (.transaction (emptyVector (vectors 64))) ∧
      Codec.decodeAll (encode (emptyVector (vectors 64))) = .ok (emptyVector (vectors 64)) := by
  have answered : answer .finalize (run [.makeMoveVec (some (vectors 64)) []]) =
      .ok (.transaction (emptyVector (vectors 64))) := rfl
  have shallow : ∀ type ∈ (emptyVector (vectors 64)).types, type.depth ≤ TypeTag.maxDepth := by
    exact List.forall_mem_singleton.mpr (by decide)
  exact ⟨answered, (finalize_readBack answered (emptyVector_isShort 64)).2.mpr shallow⟩

/-- One level more, and the transaction is still finalized but no longer read back. -/
theorem vectors_unread :
    answer .finalize (run [.makeMoveVec (some (vectors 65)) []]) =
        .ok (.transaction (emptyVector (vectors 65))) ∧
      (∀ c ∈ (emptyVector (vectors 65)).commands, c.IsShort) ∧
      Codec.decodeAll (encode (emptyVector (vectors 65))) ≠ .ok (emptyVector (vectors 65)) := by
  refine ⟨rfl, emptyVector_isShort 65, fun read => ?_⟩
  have inside := (decodeAll_ok_iff.mp read).1
  have valid : (emptyVector (vectors 65)).validate = .ok () := rfl
  have shallow := (ProgrammableTransaction.readable_iff_of_validate valid (emptyVector_isShort 65)).mp
    inside _ List.mem_cons_self
  exact absurd shallow (by decide)

end BuilderOp

end MoveTx
