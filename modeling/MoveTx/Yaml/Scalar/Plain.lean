import MoveTx.Yaml.Scalar.Folding

/-!
# Plain scalars

A plain scalar has no quotes. It ends before a colon that announces a value, before a comment and, between
brackets, before a mark of theirs. Outside of brackets its lines stand deeper than the collection
around it.
-/

namespace MoveTx.Yaml

/-- Whether a plain scalar may begin here. -/
def startsPlain (flow : Bool) : List Char → Bool
  | [] => false
  | c :: rest =>
    if c == '-' then !startsBlank rest
    else if c == '?' || c == ':' then !flow && !startsBlank rest
    else !(isBlank c || isBreak c || isFlowMark c || "#&*!|>'\"%@`".toList.contains c)

/-- Whether a word ends before `c` and `rest`. -/
def endsWord (flow : Bool) (c : Char) (rest : List Char) : Bool :=
  (c == ':' && startsBlank rest) || (flow && isFlowMark c)

/-- Whether a colon stands right before a mark of the brackets around it, or before a question mark. -/
def isTightColon (flow : Bool) (c : Char) (rest : List Char) : Bool :=
  flow && c == ':' && rest.head?.any fun d => isFlowMark d || d == '?'

/-- Whether the scalar does not go on after a gap. -/
def endsPlain (flow : Bool) (floor : Nat) (p : Place) (cs : List Char) : Bool :=
  (!flow && p.column < floor) || (p.column == 0 && startsMarker cs) || cs.head? == some '#'

/-- Reads on in a plain scalar whose lines stand at column `floor` or beyond. -/
def plainRest? (flow : Bool) (floor : Nat) :
    Folding → Place → List Char → Option (Folding × Cursor)
  | t, p, [] => some (t, ⟨[], p⟩)
  | t, p, c :: rest =>
    if isBlank c || isBreak c then
      if c = '\t' && t.gap.hasBreak && p.column < floor then none
      else plainRest? flow floor (t.add c) (p.after c) rest
    else if !t.gap.isEmpty && endsPlain flow floor p (c :: rest) then some (t, ⟨c :: rest, p⟩)
    else if isTightColon flow c rest then none
    else if endsWord flow c rest then some (t, ⟨c :: rest, p⟩)
    else plainRest? flow floor (t.push c) (p.after c) rest

/-- The plain scalar that begins here, and whether the next token begins a line. -/
def plain? (flow : Bool) (floor : Nat) (cur : Cursor) : Option (String × Bool × Cursor) := do
  let (t, cur) ← plainRest? flow floor .empty cur.place cur.rest
  return (t.words, t.gap.hasBreak, cur)

end MoveTx.Yaml
