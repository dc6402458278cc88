import MoveTx.CallTarget
import MoveTx.Draft.Lowering

/-!
# Calls

A call is lowered against the signature of its function, one value to each parameter. Functions of the
framework are called without looking up their signatures.
-/

namespace MoveTx

/-- The handle of one of the results of a command. -/
def Argument.nested (result : Argument) (index : Nat) : Argument :=
  match result with
  | .result command => .nestedResult command (UInt16.ofNat index)
  | other => other

/-- The handles of the returned values: the result itself, unless there are several. -/
def Argument.returned (result : Argument) (count : Nat) : List Argument :=
  match result with
  | .result _ => if 1 < count then (List.range count).map result.nested else [result]
  | other => [other]

/-- Whether a call gives the numbers of arguments and of type arguments that the function takes. The
target is named as the caller wrote it. -/
def MoveFunction.checkCounts (f : MoveFunction) (target : String) (arguments typeArguments : Nat) :
    Except BuilderError Unit :=
  if f.userParameters.length ≠ arguments then
    .error (.argumentTypeMismatch (.argumentCount target f.userParameters.length arguments))
  else if f.typeParameters.length ≠ typeArguments then
    .error (.argumentTypeMismatch (.typeArgumentCount target f.typeParameters.length typeArguments))
  else .ok ()

namespace Draft

/-- Marks the last of the handles as an object that is to be received. -/
def receiveLast (handles : List Argument) : DraftStep Unit :=
  match handles.getLast? with
  | some last => onBuilder (Builder.markReceiving last)
  | none => return ()

/-- Calls a function of a signature and gives the handles of the returned values. -/
def call (target : CallTarget) (f : MoveFunction) (values : List CallValue)
    (typeArguments : List TypeTag) : DraftStep (List Argument) := do
  let handles ← (values.zip f.userParameters).mapM fun (value, t) => lower value (some t)
  if f.receivesLast then receiveLast handles
  let result ← append (.moveCall ⟨target.package, target.module, target.function, typeArguments, handles⟩)
  return result.returned f.returns.length

/-! ### Functions of the framework -/

/-- `0x2::pay::divide_and_keep` -/
def divideAndKeep : CallTarget :=
  ⟨.suiFramework, ⟨"pay", by decide⟩, ⟨"divide_and_keep", by decide⟩⟩

/-- `0x2::transfer::public_transfer` -/
def publicTransferTarget : CallTarget :=
  ⟨.suiFramework, ⟨"transfer", by decide⟩, ⟨"public_transfer", by decide⟩⟩

/-- `0x3::sui_system::request_add_stake_mul_coin` -/
def requestStake : CallTarget :=
  ⟨.suiSystem, ⟨"sui_system", by decide⟩, ⟨"request_add_stake_mul_coin", by decide⟩⟩

/-- `0x3::sui_system::request_withdraw_stake` -/
def requestWithdrawal : CallTarget :=
  ⟨.suiSystem, ⟨"sui_system", by decide⟩, ⟨"request_withdraw_stake", by decide⟩⟩

/-- `0x1::option::some` -/
def optionSome : CallTarget :=
  ⟨.moveStdlib, StructTag.optionModule, ⟨"some", by decide⟩⟩

/-- `0x1::option::none` -/
def optionNone : CallTarget :=
  ⟨.moveStdlib, StructTag.optionModule, ⟨"none", by decide⟩⟩

/-- Calls a function with handles. -/
def callDirectly (target : CallTarget) (typeArguments : List TypeTag) (handles : List Argument) :
    DraftStep Argument :=
  append (.moveCall ⟨target.package, target.module, target.function, typeArguments, handles⟩)

/-- Sends an object through the framework, which asks of its type that it has `store`. -/
def publicTransfer (object : CallValue) (recipient : Address) (type : TypeTag) :
    DraftStep Argument := do
  let object ← lowerObject object none
  let recipient ← addressInput recipient
  callDirectly publicTransferTarget [type] [object, recipient]

/-- An optional value that holds the object, if there is one. -/
def optionalObject (object : Option CallValue) (type : TypeTag) : DraftStep Argument :=
  match object with
  | some object => do
    let object ← lowerObject object none
    callDirectly optionSome [type] [object]
  | none => callDirectly optionNone [type] []

end Draft

end MoveTx
