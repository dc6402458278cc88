import MoveTx.Text.Casing

/-!
# Lowercase text

Each character takes its lowercase form. A capital sigma at the end of a word, that is after a cased
character and before none, becomes the final form.
-/

namespace MoveTx.Text

/-- Whether the first character that is not passed over has a case. -/
def startsCased (cs : List Char) : Bool :=
  match cs.dropWhile isCaseIgnorable with
  | [] => false
  | c :: _ => isCased c

/-- Lowers `cs`, which follows the characters `before` in reversed order. -/
def lowercaseAfter : (before cs : List Char) → List Char
  | _, [] => []
  | before, c :: cs =>
    let lowered :=
      if c.toNat = 0x3a3 then
        if startsCased before && !startsCased cs then [Char.ofNat 0x3c2] else [Char.ofNat 0x3c3]
      else lowercaseChar c
    lowered ++ lowercaseAfter (c :: before) cs

/-- The lowercase form of a text. -/
def lowercase (s : String) : String :=
  String.ofList (lowercaseAfter [] s.toList)

end MoveTx.Text
