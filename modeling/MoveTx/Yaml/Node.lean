import MoveTx.Yaml.Event.Basic

/-!
# Nodes

A document is a tree of scalars, sequences and mappings. A node with an anchor may stand in further places
of the tree by reference, even inside of itself. A `Builder` takes the events of a document one by one.
-/

namespace MoveTx.Yaml

inductive Node
  /-- A scalar, which is plain when it is written without quotes and not as a block. -/
  | scalar (text : String) (plain : Bool) (tag : Option Bytes)
  | seq (items : List Node)
  | map (entries : List (Node × Node))
  /-- The node of the anchor with a number. -/
  | reference (anchor : Nat)

/-- The numbers of anchors. A name has the number that was given to it last. -/
structure Anchors where
  /-- The count of distinct names. -/
  count : Nat
  /-- The number of each name, the last one first. -/
  numbers : List (String × Nat)
  /-- The order in which the node of each number began, the last one first. -/
  starts : List (Nat × Nat)

namespace Anchors

def empty : Anchors := ⟨0, [], []⟩

def number? (name : String) (a : Anchors) : Option Nat :=
  a.numbers.lookup name

/-- Gives a name to the node that began as number `order`. Its number is the count of names before, which
may be the number of another name. -/
def declare (name : String) (order : Nat) (a : Anchors) : Anchors :=
  let count := if (a.number? name).isSome then a.count else a.count + 1
  ⟨count, (name, a.count) :: a.numbers, (a.count, order) :: a.starts⟩

end Anchors

/-- A collection that has not ended, with its content in reversed order. -/
inductive OpenNode
  | seq (items : List Node)
  | map (key : Option Node) (entries : List (Node × Node))

/-- The part of a document that has been built. -/
structure Builder where
  /-- The collections that have not ended, innermost first. One with an anchor has the order in which it
  began. -/
  outer : List (Option Nat × OpenNode)
  root : Option Node
  anchors : Anchors
  /-- The count of nodes that have begun. -/
  begun : Nat
  /-- The nodes with an anchor that have ended, by the order in which they began. -/
  anchored : List (Nat × Node)

namespace Builder

def empty : Builder := ⟨[], none, .empty, 0, []⟩

/-- Puts a node into the innermost collection. -/
def add (node : Node) (b : Builder) : Builder :=
  match b.outer with
  | [] => { b with root := some node }
  | (order, .seq items) :: outer => { b with outer := (order, .seq (node :: items)) :: outer }
  | (order, .map none entries) :: outer => { b with outer := (order, .map (some node) entries) :: outer }
  | (order, .map (some key) entries) :: outer =>
    { b with outer := (order, .map none ((key, node) :: entries)) :: outer }

/-- Begins a node, and gives its order if it has an anchor. -/
def begin (anchor : Option String) (b : Builder) : Option Nat × Builder :=
  match anchor with
  | some name =>
    (some b.begun, { b with anchors := b.anchors.declare name b.begun, begun := b.begun + 1 })
  | none => (none, { b with begun := b.begun + 1 })

/-- Ends a node. -/
def finish (order : Option Nat) (node : Node) (b : Builder) : Builder :=
  match order with
  | some n => { b with anchored := (n, node) :: b.anchored }.add node
  | none => b.add node

/-- Begins a collection. -/
def enter (anchor : Option String) (node : OpenNode) (b : Builder) : Builder :=
  let (order, b) := b.begin anchor
  { b with outer := (order, node) :: b.outer }

/-- Goes on with an event. A reference must be to a name given before it. -/
def step? (b : Builder) : Event → Option Builder
  | .reference name => do return b.add (.reference (← b.anchors.number? name))
  | .scalar p text plain =>
    let (order, b) := b.begin p.anchor
    some (b.finish order (.scalar text plain p.tag))
  | .seq anchor => some (b.enter anchor (.seq []))
  | .map anchor => some (b.enter anchor (.map none []))
  | .seqEnd =>
    match b.outer with
    | (order, .seq items) :: outer => some ({ b with outer }.finish order (.seq items.reverse))
    | _ => none
  | .mapEnd =>
    match b.outer with
    | (order, .map none entries) :: outer =>
      some ({ b with outer }.finish order (.map entries.reverse))
    | _ => none

/-- What events build. -/
def ofEvents? (events : List Event) : Option Builder :=
  events.foldlM step? empty

end Builder

end MoveTx.Yaml
