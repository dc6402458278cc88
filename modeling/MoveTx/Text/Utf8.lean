/-!
# Lengths in UTF-8

The count of bytes that characters take up.
-/

namespace MoveTx.Text

def utf8Length : List Char → Nat
  | [] => 0
  | c :: cs => c.utf8Size + utf8Length cs

end MoveTx.Text
