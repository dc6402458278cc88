/-!
# Characters and places

The classes of characters that the notation tells apart, and a `Cursor` that goes over a text from
place to place. After `normalizeLines` a line ends with a line feed or with one of the two separators
of Unicode.
-/

namespace MoveTx.Yaml

/-! ### Characters -/

def byteOrderMark : Char := Char.ofNat 0xfeff

/-- Whether a character may stand in a document. -/
def isAllowed (c : Char) : Bool :=
  let n := c.toNat
  n == 0x9 || n == 0xa || n == 0xd || (0x20 ≤ n && n ≤ 0x7e) || n == 0x85 ||
    (0xa0 ≤ n && n != 0xfffe && n != 0xffff)

/-- The characters with carriage returns and next lines written as line feeds. A line feed right after a
carriage return belongs to it. -/
def normalizeLines (cs : List Char) : List Char :=
  let step := fun (taken : List Char × Bool) (c : Char) =>
    if c = '\n' && taken.2 then (taken.1, false)
    else if c = '\r' then ('\n' :: taken.1, true)
    else if c.toNat = 0x85 then ('\n' :: taken.1, false)
    else (c :: taken.1, false)
  (cs.foldl step ([], false)).1.reverse

/-- Whether `c` ends a line. -/
def isBreak (c : Char) : Bool :=
  c == '\n' || c.toNat == 0x2028 || c.toNat == 0x2029

def isBlank (c : Char) : Bool :=
  c == ' ' || c == '\t'

/-- Whether `c` may stand in the name of an anchor, a handle or a directive. -/
def isNameChar (c : Char) : Bool :=
  c.isAlphanum || c == '-' || c == '_'

/-- Whether `c` has a meaning of its own between brackets. -/
def isFlowMark (c : Char) : Bool :=
  c == ',' || c == '[' || c == ']' || c == '{' || c == '}'

/-- Whether the line ends here. -/
def startsBreak : List Char → Bool
  | [] => true
  | c :: _ => isBreak c

/-- Whether a blank comes first or the line ends here. -/
def startsBlank : List Char → Bool
  | [] => true
  | c :: _ => isBlank c || isBreak c

/-- Whether a marker of the start or the end of a document comes first. -/
def startsMarker : List Char → Bool
  | '-' :: '-' :: '-' :: rest => startsBlank rest
  | '.' :: '.' :: '.' :: rest => startsBlank rest
  | _ => false

/-! ### Places -/

/-- A place in a text. -/
structure Place where
  /-- The UTF-8 bytes before it. -/
  index : Nat
  /-- The ends of lines before it. -/
  line : Nat
  /-- The characters before it on its line. -/
  column : Nat

namespace Place

def start : Place := ⟨0, 0, 0⟩

/-- The place after a character. -/
def after (p : Place) (c : Char) : Place :=
  if isBreak c then ⟨p.index + c.utf8Size, p.line + 1, 0⟩
  else ⟨p.index + c.utf8Size, p.line, p.column + 1⟩

/-- The place after some characters. -/
def afterAll (p : Place) (cs : List Char) : Place :=
  cs.foldl after p

end Place

/-- What is left of a text, with the place at which it begins. -/
structure Cursor where
  rest : List Char
  place : Place

namespace Cursor

def start (cs : List Char) : Cursor := ⟨cs, .start⟩

/-- Goes past `n` characters. -/
def skip (n : Nat) (cur : Cursor) : Cursor :=
  ⟨cur.rest.drop n, cur.place.afterAll (cur.rest.take n)⟩

/-- Takes characters as long as `p` holds of them. -/
def span (p : Char → Bool) (cur : Cursor) : List Char × Cursor :=
  let taken := cur.rest.takeWhile p
  (taken, ⟨cur.rest.dropWhile p, cur.place.afterAll taken⟩)

/-- Takes the next character if it has a meaning. -/
def mark {α : Type} (meaning? : Char → Option α) (cur : Cursor) : Option α × Cursor :=
  match cur.rest.head?.bind meaning? with
  | some meaning => (some meaning, cur.skip 1)
  | none => (none, cur)

def skipBlanks (cur : Cursor) : Cursor :=
  (cur.span isBlank).2

/-- Goes past the end of the line, before which only blanks and a comment may stand. -/
def endLine? (cur : Cursor) : Option Cursor :=
  let cur := cur.skipBlanks
  let cur := if cur.rest.head? = some '#' then (cur.span fun c => !isBreak c).2 else cur
  if startsBreak cur.rest then some (cur.skip 1) else none

end Cursor

end MoveTx.Yaml
