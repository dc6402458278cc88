import MoveTx.Address
import MoveTx.Identifier

/-!
# Types

A type is one of nine primitives, a vector, or a struct with its type parameters. `TypeTag.chars` is
its text, and `TypeTag.depth` the deepest nesting of vectors and type parameters in it.
-/

namespace MoveTx

inductive PrimitiveType
  | bool
  | u8
  | u16
  | u32
  | u64
  | u128
  | u256
  | address
  | signer
  deriving DecidableEq

inductive TypeTag
  | primitive (type : PrimitiveType)
  | vector (element : TypeTag)
  | struct (address : Address) (module name : Identifier) (parameters : List TypeTag)

/-- The type of a struct, by the package and module that declare it. -/
structure StructTag where
  address : Address
  module : Identifier
  name : Identifier
  parameters : List TypeTag

namespace PrimitiveType

def name : PrimitiveType → String
  | bool => "bool"
  | u8 => "u8"
  | u16 => "u16"
  | u32 => "u32"
  | u64 => "u64"
  | u128 => "u128"
  | u256 => "u256"
  | address => "address"
  | signer => "signer"

def all : List PrimitiveType :=
  [bool, u8, u16, u32, u64, u128, u256, address, signer]

def ofName? (s : String) : Option PrimitiveType :=
  all.find? fun p => p.name == s

end PrimitiveType

namespace TypeTag

/-- The deepest nesting that is read from bytes or from text. -/
def maxDepth : Nat := 64

abbrev bool : TypeTag := .primitive .bool
abbrev u8 : TypeTag := .primitive .u8
abbrev u16 : TypeTag := .primitive .u16
abbrev u32 : TypeTag := .primitive .u32
abbrev u64 : TypeTag := .primitive .u64
abbrev u128 : TypeTag := .primitive .u128
abbrev u256 : TypeTag := .primitive .u256
abbrev addressType : TypeTag := .primitive .address

def isPrimitive : TypeTag → Bool
  | primitive _ => true
  | _ => false

/-! ### Equality -/

mutual

def decEq : (s t : TypeTag) → Decidable (s = t)
  | .primitive p, .primitive q =>
    if h : p = q then isTrue (h ▸ rfl) else isFalse (fun e => h (TypeTag.primitive.inj e))
  | .vector s, .vector t =>
    match decEq s t with
    | isTrue h => isTrue (h ▸ rfl)
    | isFalse h => isFalse (fun e => h (TypeTag.vector.inj e))
  | .struct a m n ss, .struct b k l ts =>
    if h : a = b ∧ m = k ∧ n = l then
      match decEqList ss ts with
      | isTrue g => isTrue (by rw [h.1, h.2.1, h.2.2, g])
      | isFalse g => isFalse (fun e => g (TypeTag.struct.inj e).2.2.2)
    else
      isFalse (fun e =>
        h ⟨(TypeTag.struct.inj e).1, (TypeTag.struct.inj e).2.1, (TypeTag.struct.inj e).2.2.1⟩)
  | .primitive _, .vector _ => isFalse nofun
  | .primitive _, .struct _ _ _ _ => isFalse nofun
  | .vector _, .primitive _ => isFalse nofun
  | .vector _, .struct _ _ _ _ => isFalse nofun
  | .struct _ _ _ _, .primitive _ => isFalse nofun
  | .struct _ _ _ _, .vector _ => isFalse nofun

def decEqList : (ss ts : List TypeTag) → Decidable (ss = ts)
  | [], [] => isTrue rfl
  | [], _ :: _ => isFalse nofun
  | _ :: _, [] => isFalse nofun
  | s :: ss, t :: ts =>
    match decEq s t with
    | isTrue h =>
      match decEqList ss ts with
      | isTrue g => isTrue (h ▸ g ▸ rfl)
      | isFalse g => isFalse (fun e => g (List.cons.inj e).2)
    | isFalse h => isFalse (fun e => h (List.cons.inj e).1)

end

instance : DecidableEq TypeTag := decEq

/-! ### Nesting -/

mutual

/-- The deepest nesting of vectors and struct parameters, none for a primitive. -/
def depth : TypeTag → Nat
  | .primitive _ => 0
  | .vector t => depth t + 1
  | .struct _ _ _ ts => depthList ts

/-- The deepest nesting of parameters, counted from the struct that holds them. -/
def depthList : List TypeTag → Nat
  | [] => 0
  | t :: ts => max (depth t + 1) (depthList ts)

end

/-! ### Text -/

mutual

def chars : TypeTag → List Char
  | .primitive p => p.name.toList
  | .vector t => "vector<".toList ++ chars t ++ ['>']
  | .struct a m n ts =>
    a.text.toList ++ "::".toList ++ m.name.toList ++ "::".toList ++ n.name.toList ++
      match ts with
      | [] => []
      | t :: ts => '<' :: chars t ++ laterChars ts ++ ['>']

/-- The parameters after the first, each after a comma and a space. -/
def laterChars : List TypeTag → List Char
  | [] => []
  | t :: ts => ", ".toList ++ chars t ++ laterChars ts

end

def text (t : TypeTag) : String :=
  String.ofList t.chars

end TypeTag

namespace StructTag

def toTypeTag (s : StructTag) : TypeTag :=
  .struct s.address s.module s.name s.parameters

def ofTypeTag? : TypeTag → Option StructTag
  | .struct address module name parameters => some ⟨address, module, name, parameters⟩
  | _ => none

instance : DecidableEq StructTag := fun s t =>
  if h : s.toTypeTag = t.toTypeTag then
    isTrue (by cases s; cases t; simp_all [toTypeTag])
  else isFalse (fun e => h (e ▸ rfl))

def text (s : StructTag) : String :=
  s.toTypeTag.text

/-- The struct `address::module::name`, when both names are identifiers. -/
def parts (address : Address) (module name : String) (parameters : List TypeTag) :
    Except TextError StructTag := do
  let module ← Identifier.parse module
  let name ← Identifier.parse name
  return ⟨address, module, name, parameters⟩

/-- Whether this is `address::module::name`, whatever its parameters. -/
def isNamed (s : StructTag) (address : Address) (module name : String) : Bool :=
  s.address == address && s.module.name == module && s.name.name == name

/-! ### Well-known structs -/

/-- The module of optional values. -/
def optionModule : Identifier := ⟨"option", by decide⟩

/-- `0x2::sui::SUI` -/
def sui : StructTag :=
  ⟨.suiFramework, ⟨"sui", by decide⟩, ⟨"SUI", by decide⟩, []⟩

/-- `0x2::coin::Coin<T>` -/
def coin (t : TypeTag) : StructTag :=
  ⟨.suiFramework, ⟨"coin", by decide⟩, ⟨"Coin", by decide⟩, [t]⟩

/-- `0x2::coin::Coin<0x2::sui::SUI>` -/
def gasCoin : StructTag :=
  coin sui.toTypeTag

/-- `0x1::string::String` -/
def string : StructTag :=
  ⟨.moveStdlib, ⟨"string", by decide⟩, ⟨"String", by decide⟩, []⟩

/-- `0x1::option::Option<T>` -/
def option (t : TypeTag) : StructTag :=
  ⟨.moveStdlib, optionModule, ⟨"Option", by decide⟩, [t]⟩

end StructTag

end MoveTx
