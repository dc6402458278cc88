import MoveTx.Bytes

/-!
# Events

A document as the sequence of its scalars and of the starts and ends of its collections, in the order in
which they stand.
-/

namespace MoveTx.Yaml

/-- What may stand before a node: a name to refer to it by, and the name of its type. -/
structure Properties where
  anchor : Option String
  tag : Option Bytes

namespace Properties

def none : Properties := ⟨.none, .none⟩

def isEmpty (p : Properties) : Bool :=
  p.anchor.isNone && p.tag.isNone

end Properties

inductive Event
  /-- The node with an anchor, once more. -/
  | reference (anchor : String)
  | scalar (properties : Properties) (text : String) (plain : Bool)
  | seq (anchor : Option String)
  | seqEnd
  | map (anchor : Option String)
  | mapEnd

/-- What stands where nothing is written. -/
def Event.empty : Event := .scalar .none "" true

end MoveTx.Yaml
