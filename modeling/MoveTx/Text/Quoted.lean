import MoveTx.Text.Hex
import MoveTx.Text.Printable

/-!
# Quoted text

A quoted text stands between double quotes. The quote, the backslash, the tab, the two line ends and
the null character have two-character escapes, every other character that is not printable is written
by its code point, and the rest stands as it is.
-/

namespace MoveTx.Text

/-- The escaped form of one character. -/
def escape (c : Char) : List Char :=
  if c = '"' then ['\\', '"']
  else if c = '\\' then ['\\', '\\']
  else if c = '\n' then ['\\', 'n']
  else if c = '\r' then ['\\', 'r']
  else if c = '\t' then ['\\', 't']
  else if c.toNat = 0 then ['\\', '0']
  else if isPrintable c then [c]
  else ['\\', 'u', '\x7b'] ++ Nat.toDigits 16 c.toNat ++ ['\x7d']

/-- The text between double quotes, with its special characters escaped. -/
def quoted (s : String) : String :=
  String.ofList ('"' :: s.toList.flatMap escape ++ ['"'])

end MoveTx.Text
