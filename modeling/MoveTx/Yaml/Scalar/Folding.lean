import MoveTx.Yaml.Cursor

/-!
# Lines of a scalar

A scalar outside of blocks may run over lines. Between two words blanks are kept as they are, and ends
of lines are folded: blanks around them are dropped, and a single line feed becomes a space.
-/

namespace MoveTx.Yaml

/-- What stands between two words, in reversed order. -/
inductive Gap
  | blanks (cs : List Char)
  /-- Ends of lines. There is no first one if it was escaped. -/
  | breaks (first : Option Char) (later : List Char)

namespace Gap

def isEmpty : Gap → Bool
  | blanks cs => cs.isEmpty
  | breaks _ _ => false

def hasBreak : Gap → Bool
  | blanks _ => false
  | breaks _ _ => true

/-- The gap with one more blank or end of line. -/
def add (c : Char) : Gap → Gap
  | blanks cs => if isBreak c then breaks (some c) [] else blanks (c :: cs)
  | breaks first later => if isBreak c then breaks first (c :: later) else breaks first later

/-- What the gap becomes, in reversed order. A first line feed gives way to the further ends of lines, or
to a space if there are none, and a separator of Unicode stays. -/
def folded : Gap → List Char
  | blanks cs => cs
  | breaks none later => later
  | breaks (some first) later =>
    if first ≠ '\n' then later ++ [first]
    else if later.isEmpty then [' ']
    else later

end Gap

/-- The part of a scalar that has been read. -/
structure Folding where
  /-- The text up to the last word, in reversed order. -/
  done : List Char
  /-- What follows the last word. -/
  gap : Gap

namespace Folding

def empty : Folding := ⟨[], .blanks []⟩

/-- Goes on with a character of a word. -/
def push (t : Folding) (c : Char) : Folding :=
  ⟨c :: (t.gap.folded ++ t.done), .blanks []⟩

/-- Goes on with a character of any kind. -/
def add (t : Folding) (c : Char) : Folding :=
  if isBlank c || isBreak c then { t with gap := t.gap.add c } else t.push c

/-- Goes on with an end of line that leaves no trace. -/
def joinLine (t : Folding) : Folding :=
  ⟨t.gap.folded ++ t.done, .breaks none []⟩

/-- The text up to the last word. -/
def words (t : Folding) : String :=
  String.ofList t.done.reverse

/-- The text with what follows the last word. -/
def text (t : Folding) : String :=
  String.ofList (t.gap.folded ++ t.done).reverse

end Folding

end MoveTx.Yaml
