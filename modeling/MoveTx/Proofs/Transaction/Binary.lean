import MoveTx.Transaction.Binary
import MoveTx.Proofs.TypeTag.Binary

/-!
# Binary form of transactions

Every part of a transaction has a lawful codec. `transactionData_roundTrip` and
`transactionData_canonical` state what follows for whole transactions: what is written is read back,
and nothing but what is written is read.
-/

namespace MoveTx
open Step

/-! ### Inputs and arguments -/

instance : Readable CallArg where
  readable
    | .pure bytes => bytes.length ≤ maxSequenceLength
    | .object _ => True

instance : LawfulCodec CallArg where
  decode_iff bs arg rest := by
    refine Reader.variant_bind_iff.trans ?_
    constructor
    · rintro ⟨tag, u, -, rfl, h⟩
      split at h
      · obtain ⟨bytes, read, rfl⟩ := map_ok_iff.mp h
        obtain ⟨short, rfl⟩ := Reader.bytes_ok_iff.mp read
        exact ⟨short, (List.append_assoc _ _ _).symm⟩
      · obtain ⟨arg, -, rfl, rfl⟩ := decode_map_iff.mp h
        exact ⟨trivial, (List.append_assoc _ _ _).symm⟩
      · exact (throw_ok_iff.mp h).elim
    · rintro ⟨short, rfl⟩
      cases arg with
      | pure bytes =>
        refine ⟨0, _, by decide, List.append_assoc _ _ _, ?_⟩
        exact map_ok_iff.mpr ⟨bytes, Reader.bytes_ok_iff.mpr ⟨short, rfl⟩, rfl⟩
      | object arg =>
        refine ⟨1, _, by decide, List.append_assoc _ _ _, ?_⟩
        exact decode_map_iff.mpr ⟨arg, trivial, rfl, rfl⟩

instance : Readable Argument where
  readable _ := True

instance : LawfulCodec Argument :=
  .of_total (fun _ => trivial) fun bs arg rest => by
    refine Reader.variant_bind_iff.trans ?_
    constructor
    · rintro ⟨tag, u, -, rfl, h⟩
      split at h
      · obtain ⟨rfl, rfl⟩ := pure_ok_iff.mp h
        rfl
      · obtain ⟨i, -, rfl, rfl⟩ := decode_map_iff.mp h
        exact (List.append_assoc _ _ _).symm
      · obtain ⟨i, -, rfl, rfl⟩ := decode_map_iff.mp h
        exact (List.append_assoc _ _ _).symm
      · obtain ⟨i, j, -, rfl, rfl⟩ := decode_two_iff.mp h
        exact (append_three _ _ _ _).symm
      · exact (throw_ok_iff.mp h).elim
    · rintro rfl
      cases arg with
      | gasCoin => exact ⟨0, rest, by decide, rfl, rfl⟩
      | input i =>
        refine ⟨1, _, by decide, List.append_assoc _ _ _, ?_⟩
        exact decode_map_iff.mpr ⟨i, trivial, rfl, rfl⟩
      | result i =>
        refine ⟨2, _, by decide, List.append_assoc _ _ _, ?_⟩
        exact decode_map_iff.mpr ⟨i, trivial, rfl, rfl⟩
      | nestedResult i j =>
        refine ⟨3, _, by decide, append_three _ _ _ _, ?_⟩
        exact decode_two_iff.mpr ⟨i, j, ⟨trivial, trivial⟩, rfl, rfl⟩

/-! ### Commands -/

instance : Readable MoveCall where
  readable c :=
    readable c.module ∧ readable c.function ∧ readable c.typeArguments ∧ readable c.arguments

instance : LawfulCodec MoveCall where
  decode_iff bs c rest := by
    have written : encode c ++ rest = encode c.package ++ (encode c.module ++ (encode c.function ++
        (encode c.typeArguments ++ (encode c.arguments ++ rest)))) := by
      change (encode c.package ++ encode c.module ++ encode c.function ++ encode c.typeArguments ++
        encode c.arguments) ++ rest = _
      simp only [List.append_assoc]
    rw [written]
    refine decode_bind_iff.trans ?_
    simp only [decode_bind_iff, pure_ok_iff]
    constructor
    · rintro ⟨package, _, -, rfl, module, _, named, rfl, function, _, named', rfl, types, _, typed,
        rfl, arguments, _, given, rfl, rfl, rfl⟩
      exact ⟨⟨named, named', typed, given⟩, rfl⟩
    · rintro ⟨⟨named, named', typed, given⟩, rfl⟩
      exact ⟨c.package, _, trivial, rfl, c.module, _, named, rfl, c.function, _, named', rfl,
        c.typeArguments, _, typed, rfl, c.arguments, _, given, rfl, rfl, rfl⟩

instance : Readable Command where
  readable
    | .moveCall call => readable call
    | .transferObjects objects _ => readable objects
    | .splitCoins _ amounts => readable amounts
    | .mergeCoins _ sources => readable sources
    | .publish modules dependencies => readable modules ∧ readable dependencies
    | .makeMoveVec elementType elements => readable elementType ∧ readable elements
    | .upgrade modules dependencies _ _ => readable modules ∧ readable dependencies

instance : LawfulCodec Command where
  decode_iff bs c rest := by
    refine Reader.variant_bind_iff.trans ?_
    constructor
    · rintro ⟨tag, u, -, rfl, h⟩
      split at h
      · obtain ⟨call, inside, rfl, rfl⟩ := decode_map_iff.mp h
        exact ⟨inside, (List.append_assoc _ _ _).symm⟩
      · obtain ⟨objects, recipient, inside, rfl, rfl⟩ := decode_two_iff.mp h
        exact ⟨inside.1, (append_three _ _ _ _).symm⟩
      · obtain ⟨coin, amounts, inside, rfl, rfl⟩ := decode_two_iff.mp h
        exact ⟨inside.2, (append_three _ _ _ _).symm⟩
      · obtain ⟨destination, sources, inside, rfl, rfl⟩ := decode_two_iff.mp h
        exact ⟨inside.2, (append_three _ _ _ _).symm⟩
      · obtain ⟨modules, dependencies, inside, rfl, rfl⟩ := decode_two_iff.mp h
        exact ⟨inside, (append_three _ _ _ _).symm⟩
      · obtain ⟨elementType, elements, inside, rfl, rfl⟩ := decode_two_iff.mp h
        exact ⟨inside, (append_three _ _ _ _).symm⟩
      · simp only [decode_bind_iff, pure_ok_iff] at h
        obtain ⟨modules, _, left, rfl, dependencies, _, right, rfl, package, _, -, rfl, ticket, _, -,
          rfl, rfl, rfl⟩ := h
        refine ⟨⟨left, right⟩, ?_⟩
        change _ = (Codec.uleb 6 ++ encode modules ++ encode dependencies ++ encode package ++
          encode ticket) ++ _
        simp only [List.append_assoc]
      · exact (throw_ok_iff.mp h).elim
    · rintro ⟨inside, rfl⟩
      cases c with
      | moveCall call =>
        refine ⟨0, _, by decide, List.append_assoc _ _ _, ?_⟩
        exact decode_map_iff.mpr ⟨call, inside, rfl, rfl⟩
      | transferObjects objects recipient =>
        refine ⟨1, _, by decide, append_three _ _ _ _, ?_⟩
        exact decode_two_iff.mpr ⟨objects, recipient, ⟨inside, trivial⟩, rfl, rfl⟩
      | splitCoins coin amounts =>
        refine ⟨2, _, by decide, append_three _ _ _ _, ?_⟩
        exact decode_two_iff.mpr ⟨coin, amounts, ⟨trivial, inside⟩, rfl, rfl⟩
      | mergeCoins destination sources =>
        refine ⟨3, _, by decide, append_three _ _ _ _, ?_⟩
        exact decode_two_iff.mpr ⟨destination, sources, ⟨trivial, inside⟩, rfl, rfl⟩
      | publish modules dependencies =>
        refine ⟨4, _, by decide, append_three _ _ _ _, ?_⟩
        exact decode_two_iff.mpr ⟨modules, dependencies, inside, rfl, rfl⟩
      | makeMoveVec elementType elements =>
        refine ⟨5, _, by decide, append_three _ _ _ _, ?_⟩
        exact decode_two_iff.mpr ⟨elementType, elements, inside, rfl, rfl⟩
      | upgrade modules dependencies package ticket =>
        have written : encode (Command.upgrade modules dependencies package ticket) ++ rest =
            Codec.uleb 6 ++ (encode modules ++ (encode dependencies ++ (encode package ++
              (encode ticket ++ rest)))) := by
          change (Codec.uleb 6 ++ encode modules ++ encode dependencies ++ encode package ++
            encode ticket) ++ rest = _
          simp only [List.append_assoc]
        refine ⟨6, _, by decide, written, ?_⟩
        simp only [decode_bind_iff, pure_ok_iff]
        exact ⟨modules, _, inside.1, rfl, dependencies, _, inside.2, rfl, package, _, trivial, rfl,
          ticket, _, trivial, rfl, rfl, rfl⟩

/-! ### Whole transactions -/

instance : Readable ProgrammableTransaction where
  readable t := readable t.inputs ∧ readable t.commands

instance : LawfulCodec ProgrammableTransaction where
  decode_iff bs t rest := by
    refine decode_two_iff.trans ?_
    constructor
    · rintro ⟨inputs, commands, inside, rfl, rfl⟩
      exact ⟨inside, (List.append_assoc _ _ _).symm⟩
    · rintro ⟨inside, rfl⟩
      exact ⟨t.inputs, t.commands, inside, List.append_assoc _ _ _, rfl⟩

instance : Readable TransactionKind where
  readable k := readable k.transaction

instance : LawfulCodec TransactionKind where
  decode_iff bs k rest := by
    refine Reader.variant_bind_iff.trans ?_
    constructor
    · rintro ⟨tag, u, -, rfl, h⟩
      split at h
      · obtain ⟨t, inside, rfl, rfl⟩ := decode_map_iff.mp h
        exact ⟨inside, (List.append_assoc _ _ _).symm⟩
      · split at h <;> exact (throw_ok_iff.mp h).elim
    · rintro ⟨inside, rfl⟩
      obtain ⟨t⟩ := k
      refine ⟨0, _, by decide, List.append_assoc _ _ _, ?_⟩
      exact decode_map_iff.mpr ⟨t, inside, rfl, rfl⟩

instance : Readable GasData where
  readable g := readable g.payment

instance : LawfulCodec GasData where
  decode_iff bs g rest := by
    have written : encode g ++ rest = encode g.payment ++ (encode g.owner ++ (encode g.price ++
        (encode g.budget ++ rest))) := by
      change (encode g.payment ++ encode g.owner ++ encode g.price ++ encode g.budget) ++ rest = _
      simp only [List.append_assoc]
    rw [written]
    refine decode_bind_iff.trans ?_
    simp only [decode_bind_iff, pure_ok_iff]
    constructor
    · rintro ⟨payment, _, inside, rfl, owner, _, -, rfl, price, _, -, rfl, budget, _, -, rfl, rfl, rfl⟩
      exact ⟨inside, rfl⟩
    · rintro ⟨inside, rfl⟩
      exact ⟨g.payment, _, inside, rfl, g.owner, _, trivial, rfl, g.price, _, trivial, rfl, g.budget, _,
        trivial, rfl, rfl, rfl⟩

instance : Readable Expiration where
  readable _ := True

instance : LawfulCodec Expiration :=
  .of_total (fun _ => trivial) fun bs e rest => by
    refine Reader.variant_bind_iff.trans ?_
    constructor
    · rintro ⟨tag, u, -, rfl, h⟩
      split at h
      · obtain ⟨rfl, rfl⟩ := pure_ok_iff.mp h
        rfl
      · obtain ⟨n, -, rfl, rfl⟩ := decode_map_iff.mp h
        exact (List.append_assoc _ _ _).symm
      · exact (throw_ok_iff.mp h).elim
    · rintro rfl
      cases e with
      | never => exact ⟨0, rest, by decide, rfl, rfl⟩
      | epoch n =>
        refine ⟨1, _, by decide, List.append_assoc _ _ _, ?_⟩
        exact decode_map_iff.mpr ⟨n, trivial, rfl, rfl⟩

instance : Readable TransactionData where
  readable d := readable d.kind ∧ readable d.gas

instance : LawfulCodec TransactionData where
  decode_iff bs d rest := by
    have written : encode d ++ rest = Codec.uleb 0 ++ (encode d.kind ++ (encode d.sender ++
        (encode d.gas ++ (encode d.expiration ++ rest)))) := by
      change (Codec.uleb 0 ++ encode d.kind ++ encode d.sender ++ encode d.gas ++
        encode d.expiration) ++ rest = _
      simp only [List.append_assoc]
    rw [written]
    refine Reader.variant_bind_iff.trans ?_
    constructor
    · rintro ⟨tag, u, -, rfl, h⟩
      split at h
      · simp only [decode_bind_iff, pure_ok_iff] at h
        obtain ⟨kind, _, left, rfl, sender, _, -, rfl, gas, _, right, rfl, expiration, _, -, rfl, rfl,
          rfl⟩ := h
        exact ⟨⟨left, right⟩, rfl⟩
      · exact (throw_ok_iff.mp h).elim
    · rintro ⟨⟨left, right⟩, rfl⟩
      refine ⟨0, _, by decide, rfl, ?_⟩
      simp only [decode_bind_iff, pure_ok_iff]
      exact ⟨d.kind, _, left, rfl, d.sender, _, trivial, rfl, d.gas, _, right, rfl, d.expiration, _,
        trivial, rfl, rfl, rfl⟩

/-- The written form of a transaction is read back to the last byte, whatever follows it, and different
transactions are written and hashed as different bytes. `readable` asks that every list, byte string and
name is no longer than `maxSequenceLength` and every type nested no deeper than `TypeTag.maxDepth`. -/
theorem transactionData_roundTrip {d : TransactionData} (inside : readable d) :
    (∀ rest : Bytes, (decode : Reader TransactionData) (encode d ++ rest) = .ok d rest) ∧
      Codec.decodeAll (encode d) = .ok d ∧
      ∀ e : TransactionData, readable e → e ≠ d → encode e ≠ encode d ∧
        textBytes "TransactionData::" ++ encode e ≠ textBytes "TransactionData::" ++ encode d := by
  have whole : Codec.decodeAll (encode d) = .ok d := decodeAll_ok_iff.mpr ⟨inside, rfl⟩
  refine ⟨fun rest => decode_ok_iff.mpr ⟨inside, rfl⟩, whole, ?_⟩
  intro e other different
  have distinct : encode e ≠ encode d := by
    intro same
    have again := decodeAll_ok_iff.mpr ⟨other, rfl⟩
    rw [same, whole] at again
    exact different (Except.ok.inj again).symm
  exact ⟨distinct, fun same => distinct (List.append_cancel_left same)⟩

/-- A call of `0x2::pay::join` on a vector of coins, a vector, a package and a receiving object. -/
def sampleData : TransactionData where
  kind := .programmable ⟨[.pure [7], .object (.receiving ⟨.clock, 3, .zero⟩)],
    [.moveCall ⟨.suiFramework, StructTag.gasCoin.module, ⟨"join", by decide⟩,
      [.vector StructTag.gasCoin.toTypeTag], [.gasCoin, .nestedResult 0 1]⟩,
      .makeMoveVec (some .u64) [.input 1], .publish [[1, 2], []] [.clock]]⟩
  sender := .clock
  gas := ⟨[⟨.random, 9, .zero⟩], .clock, 1000, 5000⟩
  expiration := .epoch 12

theorem sampleData_readable : readable sampleData := by
  simp [readable, sampleData, TransactionKind.transaction, TypeTag.IsShort, TypeTag.AreShort,
    TypeTag.depth, TypeTag.depthList, StructTag.gasCoin, StructTag.coin, StructTag.sui,
    StructTag.toTypeTag, length_textBytes, maxSequenceLength, TypeTag.maxDepth]
  decide

theorem sampleData_roundTrip :
    readable sampleData ∧
      (decode : Reader TransactionData) (encode sampleData ++ [0, 255]) = .ok sampleData [0, 255] :=
  ⟨sampleData_readable, (transactionData_roundTrip sampleData_readable).1 _⟩

/-- Only the written form of a transaction is read as that transaction: no other bytes are, and none
are with anything behind them. -/
theorem transactionData_canonical {bs : Bytes} {d : TransactionData}
    (read : Codec.decodeAll bs = .ok d) :
    encode d = bs ∧ (∀ other : Bytes, Codec.decodeAll other = .ok d → other = bs) ∧
      ∀ (e : TransactionData) (behind : Bytes), Codec.decodeAll (bs ++ behind) = .ok e → behind = [] := by
  obtain ⟨inside, rfl⟩ := decodeAll_ok_iff.mp read
  refine ⟨rfl, fun other again => (decodeAll_ok_iff.mp again).2, ?_⟩
  intro e behind longer
  obtain ⟨readableE, written⟩ := decodeAll_ok_iff.mp longer
  have front : (decode : Reader TransactionData) (encode d ++ behind) = .ok d behind :=
    decode_ok_iff.mpr ⟨inside, rfl⟩
  have all : (decode : Reader TransactionData) (encode e ++ []) = .ok e [] :=
    decode_ok_iff.mpr ⟨readableE, rfl⟩
  rw [List.append_nil, ← written, front] at all
  exact (EStateM.Result.ok.inj all).2

/-- A split of the gas coin, in bytes: the version, the kind, one input, one command, the sender, no
payment, the owner of the gas, its price and budget, and no expiration. -/
def splitBytes : Bytes :=
  [0, 0, 1, 0, 1, 7, 1, 2, 0, 1, 1, 0, 0] ++ List.replicate 32 1 ++ [0] ++ List.replicate 32 2 ++
    [232, 3, 0, 0, 0, 0, 0, 0] ++ [136, 19, 0, 0, 0, 0, 0, 0] ++ [0]

def splitData : TransactionData where
  kind := .programmable ⟨[.pure [7]], [.splitCoins .gasCoin [.input 0]]⟩
  sender := ⟨List.replicate 32 1, rfl⟩
  gas := ⟨[], ⟨List.replicate 32 2, rfl⟩, 1000, 5000⟩
  expiration := .never

theorem splitData_canonical :
    Codec.decodeAll splitBytes = .ok splitData ∧ encode splitData = splitBytes :=
  have read : Codec.decodeAll splitBytes = .ok splitData := rfl
  ⟨read, (transactionData_canonical read).1⟩

end MoveTx
