import MoveTx.Codec.Basic
import MoveTx.TextError

/-!
# Identifiers

The name of a module, a function or a struct: an ASCII letter or an underscore, then letters, digits
and underscores. An underscore alone is no name.
-/

namespace MoveTx

namespace Identifier

/-- Whether a character may stand anywhere in a name. -/
def isNameChar (c : Char) : Bool :=
  c.isAlphanum || c == '_'

def isValidChars : List Char → Bool
  | [] => false
  | c :: rest => (c.isAlpha || (c == '_' && !rest.isEmpty)) && rest.all isNameChar

def isValid (s : String) : Bool :=
  isValidChars s.toList

end Identifier

structure Identifier where
  name : String
  valid : Identifier.isValid name = true
  deriving DecidableEq

namespace Identifier

def ofString? (s : String) : Option Identifier :=
  if h : isValid s = true then some ⟨s, h⟩ else none

def parse (s : String) : Except TextError Identifier :=
  match ofString? s with
  | some i => .ok i
  | none => .error (.identifier s)

/-- The name under the name of the type. -/
def describe (i : Identifier) : String :=
  "Identifier(" ++ i.name ++ ")"

instance : Codec Identifier where
  encode i := encode i.name
  decode := do
    let s ← Reader.string
    match ofString? s with
    | some i => return i
    | none => throw (.invalidIdentifier s)

end Identifier

end MoveTx
