import MoveTx.Yaml.Event.Basic
import MoveTx.Yaml.Token.Basic

/-!
# The events of tokens

`Event.ofTokens?` reads the tokens of one document from left to right. What is still to come is a stack of
goals, and the next token decides what becomes of the goal on top, so a document may be nested as
deep as it likes.
-/

namespace MoveTx.Yaml

inductive Goal
  /-- A node. `block` says whether it may be a block collection, and `margin` whether the items of a sequence
  may stand at the column of the mapping around it. -/
  | node (block margin : Bool)
  | blockItems
  | marginItems
  | blockKey
  | blockValue
  /-- Items between brackets. `first` says that none has come. -/
  | flowItems (first : Bool)
  | flowKey (first : Bool)
  | flowValue
  /-- A value that is left out with its colon. -/
  | noValue
  /-- The key of a pair that stands among items between brackets. -/
  | pairKey
  | pairValue
  | pairEnd

/-- What becomes of a goal: the events it gives, the goals in its place and the tokens that are left. -/
structure Reduction where
  events : List Event
  goals : List Goal
  tokens : List Token

abbrev Handles := List (String × Bytes)

namespace Goal

def blockNode : Goal := .node true false

/-- A node under a key, or a key of its own. -/
def entryNode : Goal := .node true true

def flowNode : Goal := .node false false

/-- The goal `g`, for which nothing stands before one of `stops`, and then `next`. -/
def orNothing (stops : List Token) (g next : Goal) (tokens : List Token) : Reduction :=
  if tokens.head?.any stops.contains then ⟨[.empty], [next], tokens⟩
  else ⟨[], [g, next], tokens⟩

/-- The anchor and the tag that come first, in either order. -/
def properties? (handles : Handles) (tokens : List Token) : Option (Properties × List Token) :=
  match tokens with
  | .anchor name :: .tag t :: rest => do return (⟨some name, some (← t.name? handles)⟩, rest)
  | .tag t :: .anchor name :: rest => do return (⟨some name, some (← t.name? handles)⟩, rest)
  | .anchor name :: rest => some (⟨some name, none⟩, rest)
  | .tag t :: rest => do return (⟨none, some (← t.name? handles)⟩, rest)
  | rest => some (.none, rest)

/-- A node after its properties. It may be empty if it has one. The tag that says nothing counts only
there. -/
def content? (block margin : Bool) (p : Properties) (tokens : List Token) : Option Reduction :=
  match tokens with
  | .scalar text plain :: rest =>
    let tag := p.tag.filter (· ≠ Tag.plainName)
    some ⟨[.scalar { p with tag } text plain], [], rest⟩
  | .flowSeq :: rest => some ⟨[.seq p.anchor], [.flowItems true], rest⟩
  | .flowMap :: rest => some ⟨[.map p.anchor], [.flowKey true], rest⟩
  | tokens =>
    let next := tokens.head?
    if margin && next == some .entry then some ⟨[.seq p.anchor], [.marginItems], tokens⟩
    else if block && next == some .blockSeq then some ⟨[.seq p.anchor], [.blockItems], tokens.drop 1⟩
    else if block && next == some .blockMap then some ⟨[.map p.anchor], [.blockKey], tokens.drop 1⟩
    else if p.isEmpty then none
    else some ⟨[.scalar p "" true], [], tokens⟩

/-- The tokens after the comma that stands between items. -/
def afterComma? (first : Bool) (tokens : List Token) : Option (List Token) :=
  if first then some tokens
  else if tokens.head? = some .comma then some (tokens.drop 1)
  else none

def flowItems? (tokens : List Token) : Option Reduction :=
  match tokens with
  | .flowSeqEnd :: rest => some ⟨[.seqEnd], [], rest⟩
  | .key :: rest => some ⟨[.map none], [.pairKey, .flowItems false], rest⟩
  | tokens => some ⟨[], [flowNode, .flowItems false], tokens⟩

def flowKey? (tokens : List Token) : Option Reduction :=
  match tokens with
  | .flowMapEnd :: rest => some ⟨[.mapEnd], [], rest⟩
  | .key :: rest => some (orNothing [.value, .comma, .flowMapEnd] flowNode .flowValue rest)
  | tokens => some ⟨[], [flowNode, .noValue], tokens⟩

/-- What becomes of a goal before `tokens`. A pair without a key gives up the token at which this shows. -/
def reduce? (handles : Handles) : Goal → List Token → Option Reduction
  | .node _ _, .reference name :: rest => some ⟨[.reference name], [], rest⟩
  | .node block margin, tokens => do
    let (p, rest) ← properties? handles tokens
    content? block margin p rest
  | .blockItems, .entry :: rest => some (orNothing [.entry, .blockEnd] blockNode .blockItems rest)
  | .blockItems, .blockEnd :: rest => some ⟨[.seqEnd], [], rest⟩
  | .blockItems, _ => none
  | .marginItems, .entry :: rest =>
    some (orNothing [.entry, .key, .value, .blockEnd] blockNode .marginItems rest)
  | .marginItems, rest => some ⟨[.seqEnd], [], rest⟩
  | .blockKey, .key :: rest => some (orNothing [.key, .value, .blockEnd] entryNode .blockValue rest)
  | .blockKey, .blockEnd :: rest => some ⟨[.mapEnd], [], rest⟩
  | .blockKey, _ => none
  | .blockValue, .value :: rest =>
    some (orNothing [.key, .value, .blockEnd] entryNode .blockKey rest)
  | .blockValue, rest => some ⟨[.empty], [.blockKey], rest⟩
  | .flowItems first, tokens =>
    if tokens.head? = some .flowSeqEnd then flowItems? tokens
    else (afterComma? first tokens).bind flowItems?
  | .flowKey first, tokens =>
    if tokens.head? = some .flowMapEnd then flowKey? tokens
    else (afterComma? first tokens).bind flowKey?
  | .flowValue, .value :: rest =>
    some (orNothing [.comma, .flowMapEnd] flowNode (.flowKey false) rest)
  | .flowValue, rest => some ⟨[.empty], [.flowKey false], rest⟩
  | .noValue, rest => some ⟨[.empty], [.flowKey false], rest⟩
  | .pairKey, tokens =>
    if tokens.head?.any [Token.value, .comma, .flowSeqEnd].contains then
      some ⟨[.empty], [.pairValue], tokens.drop 1⟩
    else some ⟨[], [flowNode, .pairValue], tokens⟩
  | .pairValue, .value :: rest => some (orNothing [.comma, .flowSeqEnd] flowNode .pairEnd rest)
  | .pairValue, rest => some ⟨[.empty], [.pairEnd], rest⟩
  | .pairEnd, rest => some ⟨[.mapEnd], [], rest⟩

/-- Reaches all goals, with the events so far in reversed order, and gives the tokens that are left. -/
def run? (handles : Handles) :
    (steps : Nat) → List Goal → List Token → List Event → Option (List Event × List Token)
  | _, [], tokens, events => some (events.reverse, tokens)
  | 0, _ :: _, _, _ => none
  | steps + 1, g :: goals, tokens, events =>
    match g.reduce? handles tokens with
    | some r => run? handles steps (r.goals ++ goals) r.tokens (r.events.reverse ++ events)
    | none => none

end Goal

/-! ### Documents -/

/-- The directives that come first: the handles they give, and the tokens after them. `versioned` says that
the version has been given. Nothing may be given twice. -/
def directives? : (versioned : Bool) → Handles → List Token → Option (Handles × List Token)
  | versioned, handles, .version major minor :: rest =>
    if versioned || major ≠ 1 || (minor ≠ 1 && minor ≠ 2) then none
    else directives? true handles rest
  | versioned, handles, .handle name start :: rest =>
    if (handles.lookup name).isSome then none
    else directives? versioned ((name, start) :: handles) rest
  | _, handles, rest => some (handles, rest)

namespace Event

/-- The events of the node that comes first. At most three goals in a row take no token, so four steps for
each token are enough. -/
def ofNode? (handles : Handles) (tokens : List Token) : Option (List Event × List Token) :=
  Goal.run? handles (4 * tokens.length + 4) [.blockNode] tokens []

/-- Whether no node comes before the next document. -/
def endsDocument : List Token → Bool
  | [] | .version _ _ :: _ | .handle _ _ :: _ | .documentStart :: _ | .documentEnd :: _ => true
  | _ => false

/-- The events of the document that begins with directives and a marker. It may be empty. -/
def ofMarked? (tokens : List Token) : Option (List Event × List Token) := do
  let (given, rest) ← directives? false [] tokens
  let .documentStart :: rest := rest | none
  if endsDocument rest then return ([.empty], rest)
  else ofNode? (given ++ Tag.standardHandles) rest

/-- The events of the document that comes first. -/
def ofDocument? (tokens : List Token) : Option (List Event × List Token) :=
  match tokens with
  | [] => some ([.empty], [])
  | .version _ _ :: _ | .handle _ _ :: _ | .documentStart :: _ => ofMarked? tokens
  | _ => ofNode? Tag.standardHandles tokens

/-- The events of tokens that hold one document and nothing but markers of its end behind it. -/
def ofTokens? (tokens : List Token) : Option (List Event) := do
  let (events, rest) ← ofDocument? tokens
  if rest.all (· == .documentEnd) then return events else none

end Event

end MoveTx.Yaml
