import MoveTx.Proofs.Transaction.Validation
import MoveTx.Transaction.Binary

/-!
# Arguments in a transaction

`Command.pieces` is the binary form of a command with its arguments not yet written out. It tells which
arguments stand in the command and in which order. A transaction is valid when it keeps the bounds and
every argument in it names something that exists before its command; of those that do not, the first one is
reported.
-/

namespace MoveTx
open Step

/-! ### Where arguments stand -/

/-- A part of a binary form: an argument, or bytes that belong to none. -/
inductive Piece
  | bytes (bs : Bytes)
  | argument (a : Argument)

namespace Piece

def toBytes : Piece → Bytes
  | bytes bs => bs
  | argument a => encode a

def argument? : Piece → Option Argument
  | bytes _ => none
  | argument a => some a

/-- The parts of a list of arguments. -/
def list (as : List Argument) : List Piece :=
  bytes (Codec.uleb as.length) :: as.map argument

theorem toBytes_list (as : List Argument) : (list as).flatMap toBytes = encode as := by
  unfold list
  rw [List.flatMap_cons, List.flatMap_map]
  rfl

theorem arguments_list (as : List Argument) : (list as).filterMap argument? = as := by
  unfold list
  rw [List.filterMap_cons_none rfl, List.filterMap_map]
  exact List.filterMap_some

end Piece

namespace Command

/-- The parts of the binary form of a command, in their order. -/
def pieces : Command → List Piece
  | moveCall call =>
    [.bytes (Codec.uleb 0), .bytes (encode call.package), .bytes (encode call.module),
      .bytes (encode call.function), .bytes (encode call.typeArguments)] ++ Piece.list call.arguments
  | transferObjects objects recipient =>
    .bytes (Codec.uleb 1) :: (Piece.list objects ++ [.argument recipient])
  | splitCoins coin amounts => .bytes (Codec.uleb 2) :: .argument coin :: Piece.list amounts
  | mergeCoins destination sources =>
    .bytes (Codec.uleb 3) :: .argument destination :: Piece.list sources
  | publish modules dependencies =>
    [.bytes (Codec.uleb 4), .bytes (encode modules), .bytes (encode dependencies)]
  | makeMoveVec elementType elements =>
    .bytes (Codec.uleb 5) :: .bytes (encode elementType) :: Piece.list elements
  | upgrade modules dependencies package ticket =>
    [.bytes (Codec.uleb 6), .bytes (encode modules), .bytes (encode dependencies),
      .bytes (encode package), .argument ticket]

theorem toBytes_pieces (c : Command) : c.pieces.flatMap Piece.toBytes = encode c := by
  cases c with
  | moveCall call =>
    rw [pieces, List.flatMap_append, Piece.toBytes_list]
    simp [Piece.toBytes, encode]
  | transferObjects objects recipient =>
    rw [pieces, List.flatMap_cons, List.flatMap_append, Piece.toBytes_list]
    simp [Piece.toBytes, encode]
  | splitCoins coin amounts =>
    rw [pieces, List.flatMap_cons, List.flatMap_cons, Piece.toBytes_list]
    simp [Piece.toBytes, encode]
  | mergeCoins destination sources =>
    rw [pieces, List.flatMap_cons, List.flatMap_cons, Piece.toBytes_list]
    simp [Piece.toBytes, encode]
  | publish modules dependencies =>
    simp [pieces, Piece.toBytes, encode]
  | makeMoveVec elementType elements =>
    rw [pieces, List.flatMap_cons, List.flatMap_cons, Piece.toBytes_list]
    simp [Piece.toBytes, encode]
  | upgrade modules dependencies package ticket =>
    simp [pieces, Piece.toBytes, encode]

theorem arguments_pieces (c : Command) : c.pieces.filterMap Piece.argument? = c.arguments := by
  cases c with
  | moveCall call => exact Piece.arguments_list call.arguments
  | transferObjects objects recipient =>
    rw [pieces, List.filterMap_cons_none rfl, List.filterMap_append, Piece.arguments_list]
    rfl
  | splitCoins coin amounts => exact congrArg (List.cons coin) (Piece.arguments_list amounts)
  | mergeCoins destination sources =>
    exact congrArg (List.cons destination) (Piece.arguments_list sources)
  | publish modules dependencies => rfl
  | makeMoveVec elementType elements => exact Piece.arguments_list elements
  | upgrade modules dependencies package ticket => rfl

theorem mem_arguments {c : Command} {a : Argument} : a ∈ c.arguments ↔ .argument a ∈ c.pieces := by
  rw [← arguments_pieces, List.mem_filterMap]
  constructor
  · rintro ⟨piece, inside, found⟩
    cases piece with
    | bytes bs => cases found
    | argument b =>
      obtain rfl := Option.some.inj found
      exact inside
  · exact fun inside => ⟨.argument a, inside, rfl⟩

end Command

/-! ### What an argument may name -/

namespace Argument

variable {index count : Nat}

/-- The argument names something that exists before the command at `index`, where there are `count`
inputs. -/
inductive Known (index count : Nat) : Argument → Prop
  | gasCoin : Known index count .gasCoin
  | input {i : UInt16} (below : i.toNat < count) : Known index count (.input i)
  | result {j : UInt16} (earlier : j.toNat < index) : Known index count (.result j)
  | nestedResult {j k : UInt16} (earlier : j.toNat < index) : Known index count (.nestedResult j k)

/-- The error that reports an argument of the command at `index`. -/
inductive ReportedBy (index count : Nat) : Argument → BuilderError → Prop
  | input {i : UInt16} : ReportedBy index count (.input i) (.inputOutOfBounds index i count)
  | result {j : UInt16} : ReportedBy index count (.result j) (.forwardReference index j)
  | nestedResult {j k : UInt16} :
    ReportedBy index count (.nestedResult j k) (.forwardReference index j)

theorem check_ok_iff {a : Argument} : a.check index count = .ok () ↔ a.Known index count := by
  cases a with
  | gasCoin => exact iff_of_true rfl .gasCoin
  | input i => exact guard_ok_iff.trans ⟨.input, fun | .input below => below⟩
  | result j => exact guard_ok_iff.trans ⟨.result, fun | .result earlier => earlier⟩
  | nestedResult j k =>
    exact guard_ok_iff.trans ⟨.nestedResult, fun | .nestedResult earlier => earlier⟩

theorem check_error_iff {a : Argument} {e : BuilderError} :
    a.check index count = .error e ↔ ¬ a.Known index count ∧ a.ReportedBy index count e := by
  rw [← check_ok_iff]
  cases a with
  | gasCoin => exact iff_of_false nofun fun h => h.1 rfl
  | input i =>
    refine guard_error_iff.trans (and_congr (not_congr guard_ok_iff.symm) ?_)
    exact ⟨fun same => same ▸ .input, fun | .input => rfl⟩
  | result j =>
    refine guard_error_iff.trans (and_congr (not_congr guard_ok_iff.symm) ?_)
    exact ⟨fun same => same ▸ .result, fun | .result => rfl⟩
  | nestedResult j k =>
    refine guard_error_iff.trans (and_congr (not_congr guard_ok_iff.symm) ?_)
    exact ⟨fun same => same ▸ .nestedResult, fun | .nestedResult => rfl⟩

end Argument

namespace ProgrammableTransaction

/-! ### The whole transaction -/

/-- The arguments of commands, each with the place of its command, the first of which is `index`. -/
def occurrencesFrom (index : Nat) (commands : List Command) : List (Nat × Argument) :=
  (commands.zipIdx index).flatMap fun (c, place) =>
    (c.pieces.filterMap Piece.argument?).map (place, ·)

/-- The arguments of a transaction in the order in which they stand in it. -/
def occurrences (t : ProgrammableTransaction) : List (Nat × Argument) :=
  occurrencesFrom 0 t.commands

/-- The bounds on the size of a transaction. -/
structure Limited (t : ProgrammableTransaction) : Prop where
  commands : 1 ≤ t.commands.length ∧ t.commands.length ≤ 1024
  inputs : t.inputs.length ≤ 2048
  pure : ∀ bytes, CallArg.pure bytes ∈ t.inputs → bytes.length ≤ 16384

variable {t : ProgrammableTransaction}

theorem checkCommands_eq (count index : Nat) (commands : List Command) :
    checkCommands count index commands =
      (occurrencesFrom index commands).forM fun place => place.2.check place.1 count := by
  induction commands generalizing index with
  | nil => rfl
  | cons c rest ih =>
    have split : occurrencesFrom index (c :: rest) =
        c.arguments.map (index, ·) ++ occurrencesFrom (index + 1) rest := by
      rw [← c.arguments_pieces]
      rfl
    rw [split, List.forM_eq_forM, List.forM_append, List.forM_map, ← List.forM_eq_forM,
      ← List.forM_eq_forM, ← ih]
    rfl

theorem mem_occurrences {place : Nat × Argument} :
    place ∈ t.occurrences ↔
      ∃ c, t.commands[place.1]? = some c ∧ .argument place.2 ∈ c.pieces := by
  obtain ⟨index, a⟩ := place
  unfold occurrences occurrencesFrom
  simp only [List.mem_flatMap, List.mem_map, Prod.exists, Command.arguments_pieces,
    Command.mem_arguments, List.mem_zipIdx_iff_getElem?]
  constructor
  · rintro ⟨c, place, here, b, inside, same⟩
    obtain ⟨rfl, rfl⟩ := Prod.mk.inj same
    exact ⟨c, here, inside⟩
  · rintro ⟨c, here, inside⟩
    exact ⟨c, index, here, a, inside, rfl⟩

theorem checkReferences_ok_iff :
    t.checkReferences = .ok () ↔
      ∀ place ∈ t.occurrences, place.2.Known place.1 t.inputs.length := by
  unfold checkReferences
  rw [checkCommands_eq, forM_ok_iff]
  simp only [Argument.check_ok_iff]
  rfl

theorem checkReferences_error_iff {e : BuilderError} :
    t.checkReferences = .error e ↔ ∃ before index a later,
      t.occurrences = before ++ (index, a) :: later ∧
        (∀ place ∈ before, place.2.Known place.1 t.inputs.length) ∧
        ¬ a.Known index t.inputs.length ∧ a.ReportedBy index t.inputs.length e := by
  unfold checkReferences
  rw [checkCommands_eq, forM_error_iff]
  simp only [Argument.check_ok_iff, Argument.check_error_iff, Prod.exists]
  rfl

theorem validate_iff_limited : t.validate = .ok () ↔ t.Limited ∧ t.checkReferences = .ok () := by
  rw [validate_ok_iff, ← List.length_pos_iff]
  constructor
  · rintro ⟨some, few, inputs, pure, linked⟩
    exact ⟨⟨⟨some, few⟩, inputs, pure⟩, linked⟩
  · rintro ⟨⟨⟨some, few⟩, inputs, pure⟩, linked⟩
    exact ⟨some, few, inputs, pure, linked⟩

/-- A transaction within its bounds fails only as its references do. -/
theorem Limited.validate (limited : t.Limited) : t.validate = t.checkReferences := by
  have few : ¬ maxCommands < t.commands.length := Nat.not_lt.mpr limited.commands.2
  have fit : ¬ maxInputs < t.inputs.length := Nat.not_lt.mpr limited.inputs
  have short : t.inputs.any isOversized = false := not_isOversized_iff.mpr limited.pure
  have empty : t.commands.isEmpty = false := by
    rw [List.isEmpty_eq_false_iff, ← List.length_pos_iff]
    exact limited.commands.1
  unfold ProgrammableTransaction.validate
  rw [empty, short, if_neg Bool.false_ne_true, if_neg few, if_neg fit, if_neg Bool.false_ne_true]

/-- A transaction is valid exactly when it keeps its bounds and each argument that stands in the binary form
of a command names the gas coin, an input that there is, or the result of an earlier command. If only an
argument is wrong, the first one that is wrong is reported, in the order of the binary form. -/
theorem validate_exact (t : ProgrammableTransaction) :
    (∀ c ∈ t.commands, c.pieces.flatMap Piece.toBytes = encode c) ∧
    (t.validate = .ok () ↔ t.Limited ∧ ∀ (index : Nat) (c : Command), t.commands[index]? = some c →
      ∀ a : Argument, .argument a ∈ c.pieces → a.Known index t.inputs.length) ∧
    (t.Limited → ∀ e, t.validate = .error e ↔ ∃ before index a later,
      t.occurrences = before ++ (index, a) :: later ∧
        (∀ place ∈ before, place.2.Known place.1 t.inputs.length) ∧
        ¬ a.Known index t.inputs.length ∧ a.ReportedBy index t.inputs.length e) := by
  refine ⟨fun c _ => c.toBytes_pieces, ?_, ?_⟩
  · rw [validate_iff_limited, checkReferences_ok_iff]
    refine and_congr_right fun _ => ?_
    constructor
    · intro known index c here a inside
      exact known (index, a) (mem_occurrences.mpr ⟨c, here, inside⟩)
    · intro known place inside
      obtain ⟨c, here, stands⟩ := mem_occurrences.mp inside
      exact known place.1 c here place.2 stands
  · intro limited e
    rw [limited.validate]
    exact checkReferences_error_iff

/-- A command that takes its own result, and after it an input that there is not. -/
def takesItself : ProgrammableTransaction where
  inputs := [.pure [7]]
  commands :=
    [.splitCoins .gasCoin [.input 0], .transferObjects [.nestedResult 0 0, .result 1] (.input 3)]

theorem takesItself_reported :
    takesItself.Limited ∧ takesItself.validate = .error (.forwardReference 1 1) := by
  have limited : takesItself.Limited := ⟨by decide, by decide, by simp [takesItself]⟩
  obtain ⟨-, -, reports⟩ := validate_exact takesItself
  refine ⟨limited, (reports limited _).mpr ?_⟩
  refine ⟨[(0, .gasCoin), (0, .input 0), (1, .nestedResult 0 0)], 1, .result 1, [(1, .input 3)], rfl, ?_,
    ?_, .result⟩
  · intro place inside
    simp only [List.mem_cons, List.not_mem_nil, or_false] at inside
    rcases inside with rfl | rfl | rfl
    · exact .gasCoin
    · exact .input (by decide)
    · exact .nestedResult (by decide)
  · intro known
    cases known with
    | result earlier => exact absurd earlier (by decide)

end ProgrammableTransaction

end MoveTx
