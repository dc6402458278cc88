import MoveTx.Yaml.Cursor

/-!
# Block scalars

The lines of a block scalar stand below its sign, all at one depth or deeper. A literal block keeps its
ends of lines. A folded block writes a single one between two lines of text as a space. The marks
after the sign give the depth and what is kept of the ends of lines after the last line.
-/

namespace MoveTx.Yaml

/-- What is kept of the ends of lines after the last line. -/
inductive Chomping
  | strip
  | clip
  | keep

def chomping? (c : Char) : Option Chomping :=
  if c = '+' then some .keep else if c = '-' then some .strip else none

def digit? (c : Char) : Option Nat :=
  if c.isDigit then some (c.toNat - '0'.toNat) else none

/-- The marks after the sign, in either order. The depth is not zero. -/
def blockMarks? (cur : Cursor) : Option (Chomping × Option Nat × Cursor) := do
  let (before, cur) := cur.mark chomping?
  let (depth, cur) := cur.mark digit?
  if depth = some 0 then none
  match before with
  | some chomping => return (chomping, depth, cur)
  | none =>
    let (after, cur) := cur.mark chomping?
    return (after.getD .clip, depth, cur)

/-- The part of a block scalar that has been read. -/
structure BlockText where
  /-- The text up to the last line, in reversed order. -/
  done : List Char
  /-- What ended the last line. -/
  lineEnd : Option Char
  /-- The ends of the empty lines after it, in reversed order. -/
  later : List Char
  /-- Whether the last line began with a blank. -/
  indented : Bool

namespace BlockText

def empty : BlockText := ⟨[], none, [], false⟩

/-- Begins a line with `c`. -/
def beginLine (folded : Bool) (c : Char) (t : BlockText) : BlockText :=
  let fold := folded && t.lineEnd == some '\n' && !t.indented && !isBlank c
  let lineEnd :=
    if !fold then t.lineEnd.toList
    else if t.later.isEmpty then [' ']
    else []
  ⟨c :: (t.later ++ lineEnd ++ t.done), none, [], isBlank c⟩

def push (c : Char) (t : BlockText) : BlockText :=
  { t with done := c :: t.done }

def text (chomping : Chomping) (t : BlockText) : String :=
  let tail := match chomping with
    | .strip => []
    | .clip => t.lineEnd.toList
    | .keep => t.later ++ t.lineEnd.toList
  String.ofList (tail ++ t.done).reverse

end BlockText

/-- Reads lines as long as they stand at the depth of the first one, which is at least `floor`. `depth` is
that depth once it is known, `deepest` the length of the longest run of spaces before, and `inLine`
says that a line has begun. -/
def blockLines? (folded : Bool) (floor : Nat) :
    (depth : Option Nat) → (deepest : Nat) → (inLine : Bool) → BlockText → Place → List Char →
      Option (BlockText × Cursor)
  | _, _, _, t, p, [] => some (t, ⟨[], p⟩)
  | depth, deepest, true, t, p, c :: rest =>
    if isBreak c then
      blockLines? folded floor depth deepest false { t with lineEnd := some c } (p.after c) rest
    else blockLines? folded floor depth deepest true (t.push c) (p.after c) rest
  | depth, deepest, false, t, p, c :: rest =>
    let shallow := depth.all fun n => p.column < n
    let deepest := if c = ' ' then deepest else max deepest p.column
    if isBreak c then
      blockLines? folded floor depth deepest false { t with later := c :: t.later } (p.after c) rest
    else if shallow && c = ' ' then blockLines? folded floor depth deepest false t (p.after c) rest
    else if shallow && c = '\t' then none
    else
      let known := depth.getD (max deepest floor)
      if p.column = known then
        blockLines? folded floor (some known) deepest true (t.beginLine folded c) (p.after c) rest
      else some (t, ⟨c :: rest, p⟩)

/-- The block scalar that begins at its sign, inside a collection at column `outer` if there is one. -/
def block? (outer : Option Nat) (cur : Cursor) : Option (String × Cursor) := do
  let folded := cur.rest.head? == some '>'
  let (chomping, depth, cur) ← blockMarks? (cur.skip 1)
  let cur ← cur.endLine?
  let floor := match outer with
    | some column => column + 1
    | none => 1
  let depth := depth.map (outer.getD 0 + ·)
  let (t, cur) ← blockLines? folded floor depth 0 false .empty cur.place cur.rest
  return (t.text chomping, cur)

end MoveTx.Yaml
