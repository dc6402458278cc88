import MoveTx.Hash.Blake2b
import MoveTx.Transaction.Basic
import MoveTx.TypeTag.Binary

/-!
# Binary form of transactions

Records are their fields in order and each variant starts with its tag. The digest of a transaction is
the hash of its binary form behind the name of the type.
-/

namespace MoveTx

instance : Codec CallArg where
  encode
    | .pure bytes => Codec.uleb 0 ++ Codec.bytes bytes
    | .object arg => Codec.uleb 1 ++ encode arg
  decode := do
    match ← Reader.variant with
    | 0 => .pure <$> Reader.bytes
    | 1 => .object <$> decode
    | tag => throw (.invalidTag "CallArg" tag)

instance : Codec Argument where
  encode
    | .gasCoin => Codec.uleb 0
    | .input i => Codec.uleb 1 ++ encode i
    | .result i => Codec.uleb 2 ++ encode i
    | .nestedResult i j => Codec.uleb 3 ++ encode i ++ encode j
  decode := do
    match ← Reader.variant with
    | 0 => return .gasCoin
    | 1 => .input <$> decode
    | 2 => .result <$> decode
    | 3 =>
      let i ← decode
      let j ← decode
      return .nestedResult i j
    | tag => throw (.invalidTag "Argument" tag)

instance : Codec MoveCall where
  encode c :=
    encode c.package ++ encode c.module ++ encode c.function ++ encode c.typeArguments ++
      encode c.arguments
  decode := do
    let package ← decode
    let module ← decode
    let function ← decode
    let typeArguments ← decode
    let arguments ← decode
    return ⟨package, module, function, typeArguments, arguments⟩

instance : Codec Command where
  encode
    | .moveCall call => Codec.uleb 0 ++ encode call
    | .transferObjects objects recipient => Codec.uleb 1 ++ encode objects ++ encode recipient
    | .splitCoins coin amounts => Codec.uleb 2 ++ encode coin ++ encode amounts
    | .mergeCoins destination sources => Codec.uleb 3 ++ encode destination ++ encode sources
    | .publish modules dependencies => Codec.uleb 4 ++ encode modules ++ encode dependencies
    | .makeMoveVec elementType elements => Codec.uleb 5 ++ encode elementType ++ encode elements
    | .upgrade modules dependencies package ticket =>
      Codec.uleb 6 ++ encode modules ++ encode dependencies ++ encode package ++ encode ticket
  decode := do
    match ← Reader.variant with
    | 0 => .moveCall <$> decode
    | 1 =>
      let objects ← decode
      let recipient ← decode
      return .transferObjects objects recipient
    | 2 =>
      let coin ← decode
      let amounts ← decode
      return .splitCoins coin amounts
    | 3 =>
      let destination ← decode
      let sources ← decode
      return .mergeCoins destination sources
    | 4 =>
      let modules ← decode
      let dependencies ← decode
      return .publish modules dependencies
    | 5 =>
      let elementType ← decode
      let elements ← decode
      return .makeMoveVec elementType elements
    | 6 =>
      let modules ← decode
      let dependencies ← decode
      let package ← decode
      let ticket ← decode
      return .upgrade modules dependencies package ticket
    | tag => throw (.invalidTag "Command" tag)

instance : Codec ProgrammableTransaction where
  encode t := encode t.inputs ++ encode t.commands
  decode := do
    let inputs ← decode
    let commands ← decode
    return ⟨inputs, commands⟩

instance : Codec TransactionKind where
  encode
    | .programmable t => Codec.uleb 0 ++ encode t
  decode := do
    match ← Reader.variant with
    | 0 => .programmable <$> decode
    | tag =>
      if tag ≤ 3 then throw (.unsupportedVariant "TransactionKind" tag)
      else throw (.invalidTag "TransactionKind" tag)

instance : Codec GasData where
  encode g := encode g.payment ++ encode g.owner ++ encode g.price ++ encode g.budget
  decode := do
    let payment ← decode
    let owner ← decode
    let price ← decode
    let budget ← decode
    return ⟨payment, owner, price, budget⟩

instance : Codec Expiration where
  encode
    | .never => Codec.uleb 0
    | .epoch n => Codec.uleb 1 ++ encode n
  decode := do
    match ← Reader.variant with
    | 0 => return .never
    | 1 => .epoch <$> decode
    | tag => throw (.invalidTag "TransactionExpiration" tag)

/-- The only version of transaction data has the tag zero. -/
instance : Codec TransactionData where
  encode d := Codec.uleb 0 ++ encode d.kind ++ encode d.sender ++ encode d.gas ++ encode d.expiration
  decode := do
    match ← Reader.variant with
    | 0 =>
      let kind ← decode
      let sender ← decode
      let gas ← decode
      let expiration ← decode
      return ⟨kind, sender, gas, expiration⟩
    | tag => throw (.invalidTag "TransactionData" tag)

/-- The hash of the binary form behind `TransactionData::`. -/
def TransactionData.digest (d : TransactionData) : Digest :=
  ⟨Blake2b.hash (textBytes "TransactionData::" ++ encode d)⟩

end MoveTx
