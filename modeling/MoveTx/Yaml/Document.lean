import MoveTx.Yaml.Event.Grammar
import MoveTx.Yaml.Node
import MoveTx.Yaml.Token.Lexer

/-!
# Documents

`Document.ofText?` reads a text that holds one document. What its scalars mean is decided where they are
used: `text?` takes any scalar as a text, and `optionalText?` knows the plain scalars that stand for
nothing. A reference stands for its node everywhere.
-/

namespace MoveTx.Yaml

/-- A tree of nodes with anchors. -/
structure Document where
  root : Node
  /-- The order in which the node of each number began, the last one first. -/
  starts : List (Nat × Nat)
  /-- The nodes with an anchor, by the order in which they began. -/
  anchored : List (Nat × Node)

namespace Document

def ofEvents? (events : List Event) : Option Document := do
  let b ← Builder.ofEvents? events
  return ⟨← b.root, b.anchors.starts, b.anchored⟩

def ofText? (s : String) : Option Document := do
  ofEvents? (← Event.ofTokens? (← Token.ofText? s))

/-- The node that a node stands for, which is the last one of the number of a reference. -/
def resolve? (d : Document) : Node → Option Node
  | .reference number => do d.anchored.lookup (← d.starts.lookup number)
  | node => some node

def text? (d : Document) (node : Node) : Option String := do
  match ← d.resolve? node with
  | .scalar text _ _ => return text
  | _ => none

/-- Whether a text stands for nothing when it is plain. -/
def isNullText (s : String) : Bool :=
  s == "~" || s == "null" || s == "Null" || s == "NULL"

/-- A text, or nothing in its place. A plain scalar of the type with one value must be one of its texts. -/
def optionalText? (d : Document) (node : Node) : Option (Option String) := do
  match ← d.resolve? node with
  | .scalar text false _ => return some text
  | .scalar text true none => return if text.isEmpty || isNullText text then none else some text
  | .scalar text true (some tag) =>
    if tag ≠ Tag.nullName then return some text
    else if isNullText text then return none
    else failure
  | _ => failure

/-- The entries of a mapping whose keys are texts. An empty plain scalar is a mapping without entries. -/
def entries? (d : Document) (node : Node) : Option (List (String × Node)) := do
  match ← d.resolve? node with
  | .scalar text plain _ => if plain && text.isEmpty then return [] else none
  | .map entries => entries.mapM fun entry => do return (← d.text? entry.1, entry.2)
  | _ => none

/-- The value under a name, if there is one. Fails when there are several. -/
def valueOf? (name : String) (entries : List (String × Node)) : Option (Option Node) :=
  match entries.filter fun entry => entry.1 == name with
  | [] => some none
  | [entry] => some (some entry.2)
  | _ => none

/-- The fields of a record in the order of `names`. A record is a mapping, in which other names are passed
over and no field may stand twice. -/
def fields? (d : Document) (names : List String) (node : Node) : Option (List (Option Node)) := do
  let entries ← d.entries? node
  names.mapM fun name => valueOf? name entries

/-- The pairs of a mapping of texts to texts. -/
def textPairs? (d : Document) (node : Node) : Option (List (String × String)) := do
  let entries ← d.entries? node
  entries.mapM fun entry => do return (entry.1, ← d.text? entry.2)

end Document

end MoveTx.Yaml
