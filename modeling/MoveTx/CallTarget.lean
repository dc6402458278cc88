import MoveTx.Identifier
import MoveTx.Address

/-!
# Targets of calls

The text of a target is the package, the module and the function, with two colons between them.
-/

namespace MoveTx

structure CallTarget where
  package : Address
  module : Identifier
  function : Identifier
  deriving DecidableEq

namespace CallTarget

/-- The pieces of a text between pairs of colons, of which there is always one. -/
def pieces : List Char → List (List Char)
  | [] => [[]]
  | ':' :: ':' :: rest => [] :: pieces rest
  | c :: rest =>
    match pieces rest with
    | [] => [[c]]
    | piece :: later => (c :: piece) :: later

/-- Reads a target. Whatever is wrong with it, the whole text is at fault. -/
def parse (s : String) : Except TextError CallTarget :=
  match pieces s.toList with
  | [package, module, function] =>
    match Address.parse (String.ofList package), Identifier.ofString? (String.ofList module),
        Identifier.ofString? (String.ofList function) with
    | .ok package, some module, some function => .ok ⟨package, module, function⟩
    | _, _, _ => .error (.target s)
  | _ => .error (.target s)

end CallTarget

end MoveTx
