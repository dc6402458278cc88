import MoveTx.Text.Blank
import MoveTx.TypeTag.Basic

/-!
# Reading types from text

The grammar is a primitive name, `vector<T>`, or `address::module::name` with parameters between angle
brackets, with white space allowed around every token. A fault is reported at the place where reading
stopped.
-/

namespace MoveTx

namespace TypeTag

/-- A computation that takes characters off the front of a text. -/
abbrev Parser (α : Type) := EStateM TypeFault (List Char) α

namespace Parser

def skipBlanks : Parser Unit :=
  modify Text.trimStart

/-- Passes over blanks, then over `token` if it comes next, and says whether it did. -/
def eat (token : String) : Parser Bool := do
  skipBlanks
  let cs ← get
  if token.toList.isPrefixOf cs then
    set (cs.drop token.length)
    return true
  else return false

def expect (token : String) : Parser Unit := do
  if ← eat token then return () else throw (.expectedToken token)

/-- The next run of letters, digits and underscores. -/
def word : Parser (List Char) := do
  skipBlanks
  let cs ← get
  match cs.takeWhile Identifier.isNameChar with
  | [] => throw .expectedName
  | w =>
    set (cs.dropWhile Identifier.isNameChar)
    return w

def identifier : Parser Identifier := do
  let w ← word
  match Identifier.ofString? (String.ofList w) with
  | some i => return i
  | none => throw .invalidIdentifier

/-- The types up to the closing bracket, the first of which comes next. At most `count` are read; a
text holds fewer types than characters. -/
def parameters (type : Parser TypeTag) : (count : Nat) → Parser (List TypeTag)
  | 0 => throw .expectedName
  | count + 1 => do
    let t ← type
    if ← eat "," then
      let ts ← parameters type count
      return t :: ts
    else
      expect ">"
      return [t]

/-- The rest of a struct after its address. -/
def struct (type : Parser TypeTag) (address : Address) : Parser TypeTag := do
  expect "::"
  let module ← identifier
  expect "::"
  let name ← identifier
  if ← eat "<" then
    let cs ← get
    let ts ← parameters type (cs.length + 1)
    return .struct address module name ts
  else return .struct address module name []

/-- A type that uses at most `levels` levels, counting its own. -/
def typeWithin : (levels : Nat) → Parser TypeTag
  | 0 => throw (.tooDeep maxDepth)
  | levels + 1 => do
    let w ← word
    skipBlanks
    let cs ← get
    if "::".toList.isPrefixOf cs then
      match Address.parse (String.ofList w) with
      | .ok address => struct (typeWithin levels) address
      | .error _ => throw .invalidAddress
    else if w = "vector".toList then
      expect "<"
      let t ← typeWithin levels
      expect ">"
      return .vector t
    else
      match PrimitiveType.ofName? (String.ofList w) with
      | some p => return .primitive p
      | none => throw .unknownType

/-- A type that takes up the whole text. -/
def whole : Parser TypeTag := do
  let t ← typeWithin (maxDepth + 1)
  skipBlanks
  match ← get with
  | [] => return t
  | _ => throw .trailing

end Parser

/-- Reads a type from the whole of a text. -/
def parse (s : String) : Except TextError TypeTag :=
  match Parser.whole.run s.toList with
  | .ok t _ => .ok t
  | .error fault rest => .error (.type s fault (Text.utf8Length s.toList - Text.utf8Length rest))

end TypeTag

/-- Reads the type of a struct from the whole of a text. -/
def StructTag.parse (s : String) : Except TextError StructTag := do
  let t ← TypeTag.parse s
  match StructTag.ofTypeTag? t with
  | some tag => return tag
  | none => .error (.notStruct s)

end MoveTx
