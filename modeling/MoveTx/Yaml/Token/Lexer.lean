import MoveTx.Yaml.Scalar.Block
import MoveTx.Yaml.Scalar.Plain
import MoveTx.Yaml.Scalar.Quoted
import MoveTx.Yaml.Token.Basic

/-!
# The tokens of a text

`Token.ofText?` goes over a text once. Whether a node is the key of an entry shows only at the colon behind
it, so the lexer keeps the place at which such a key may have begun, and the colon puts the tokens of
the key and of its mapping there.
-/

namespace MoveTx.Yaml

/-- A node that may turn out to be a key. -/
structure KeyPlace where
  /-- The count of tokens before it. -/
  position : Nat
  place : Place
  /-- Whether nothing but a key may stand here. -/
  required : Bool

/-- The colon of a key stands on its line, and at most this many bytes from its start. -/
def KeyPlace.reach : Nat := 1024

/-- Whether a colon at `p` may still belong to the key. -/
def KeyPlace.reaches (k : KeyPlace) (p : Place) : Bool :=
  k.place.line == p.line && p.index ≤ k.place.index + reach

structure Lexer where
  cursor : Cursor
  tokens : Array Token
  /-- The columns of the open block collections, innermost first. -/
  columns : List Nat
  /-- The key that may have begun at this depth of brackets. -/
  key : Option KeyPlace
  /-- The keys that may have begun around each open bracket, innermost first. -/
  outerKeys : List (Option KeyPlace)
  /-- Whether a key may begin here. -/
  keyAllowed : Bool

namespace Lexer

def start (cs : List Char) : Lexer :=
  ⟨.start cs, #[], [], none, [], true⟩

/-- Whether a bracket is open. -/
def inFlow (lx : Lexer) : Bool :=
  !lx.outerKeys.isEmpty

/-- The least column deeper than every open block collection. -/
def floor (lx : Lexer) : Nat :=
  match lx.columns with
  | [] => 0
  | column :: _ => column + 1

def column (lx : Lexer) : Nat :=
  lx.cursor.place.column

/-- Puts a token behind the others and goes on at `cur`. -/
def emit (t : Token) (cur : Cursor) (lx : Lexer) : Lexer :=
  { lx with tokens := lx.tokens.push t, cursor := cur }

/-- Puts a token of `n` characters behind the others. -/
def emitMark (t : Token) (n : Nat) (lx : Lexer) : Lexer :=
  lx.emit t (lx.cursor.skip n)

/-! ### Keys -/

/-- Gives up the key that may have begun, which must not be required. -/
def dropKey? (lx : Lexer) : Option Lexer :=
  if lx.key.any (·.required) then none else some { lx with key := none }

/-- Notes that a key may begin here. It is required at the column of the collection around it. -/
def saveKey? (lx : Lexer) : Option Lexer :=
  if lx.keyAllowed then do
    let lx ← lx.dropKey?
    let required := !lx.inFlow && lx.columns.head? == some lx.column
    return { lx with key := some ⟨lx.tokens.size, lx.cursor.place, required⟩ }
  else some lx

/-! ### Block collections -/

/-- Ends the block collections at column `floor` or beyond. Between brackets nothing ends. -/
def closeBlocks (floor : Nat) (lx : Lexer) : Lexer :=
  if lx.inFlow then lx
  else
    let closed := lx.columns.takeWhile (floor ≤ ·)
    { lx with
      columns := lx.columns.dropWhile (floor ≤ ·)
      tokens := closed.foldl (fun ts _ => ts.push .blockEnd) lx.tokens }

/-- Begins a block collection at a column if it is deeper than all open ones, with its token after the
first `position` ones. -/
def openBlock (t : Token) (column position : Nat) (lx : Lexer) : Lexer :=
  if lx.inFlow || column < lx.floor then lx
  else
    { lx with
      columns := column :: lx.columns
      tokens := lx.tokens.insertIdxIfInBounds position t }

/-- Begins a block collection here if it is deeper. Outside of brackets a key must be allowed. -/
def openHere? (t : Token) (lx : Lexer) : Option Lexer :=
  if !lx.inFlow && !lx.keyAllowed then none
  else some (lx.openBlock t lx.column lx.tokens.size)

/-! ### Going on to a token -/

/-- Passes over blanks, comments and ends of lines, and says whether a key may begin after them. Tabs are
blanks between brackets and where no key may begin. `comment` says that a comment has begun. -/
def skipToToken (flow : Bool) :
    (comment keyAllowed : Bool) → Place → List Char → Bool × Cursor
  | _, keyAllowed, p, [] => (keyAllowed, ⟨[], p⟩)
  | comment, keyAllowed, p, c :: rest =>
    if isBreak c then skipToToken flow false (keyAllowed || !flow) (p.after c) rest
    else if comment || c = ' ' || (c = '\t' && (flow || !keyAllowed)) ||
        (c = byteOrderMark && p.column = 0) then
      skipToToken flow comment keyAllowed (p.after c) rest
    else if c = '#' then skipToToken flow true keyAllowed (p.after c) rest
    else (keyAllowed, ⟨c :: rest, p⟩)

def toToken (lx : Lexer) : Lexer :=
  let (keyAllowed, cur) := skipToToken lx.inFlow false lx.keyAllowed lx.cursor.place lx.cursor.rest
  { lx with keyAllowed, cursor := cur }

/-! ### Directives and markers -/

/-- A number of at most nine digits. -/
def versionNumber? (cur : Cursor) : Option (Nat × Cursor) :=
  let (digits, cur) := cur.span Char.isDigit
  if digits.isEmpty || 9 < digits.length then none
  else some (digits.foldl (fun n c => 10 * n + (c.toNat - '0'.toNat)) 0, cur)

/-- The directive whose name is before the cursor. -/
def directiveToken? (name : List Char) (cur : Cursor) : Option (Token × Cursor) := do
  if name = ['Y', 'A', 'M', 'L'] then
    let (major, cur) ← versionNumber? cur.skipBlanks
    if cur.rest.head? ≠ some '.' then none
    let (minor, cur) ← versionNumber? (cur.skip 1)
    return (.version major minor, cur)
  else if name = ['T', 'A', 'G'] then
    let (handle, cur) ← Tag.directiveHandle? cur.skipBlanks
    if !cur.rest.head?.any isBlank then none
    let cur := cur.skipBlanks
    if !Tag.startsUri true cur then none
    let (start, cur) ← Tag.uri? true cur
    if startsBlank cur.rest then return (.handle handle start, cur) else none
  else none

/-- Ends all block collections before a directive or a marker. -/
def closeAll? (lx : Lexer) : Option Lexer := do
  let lx ← (lx.closeBlocks 0).dropKey?
  return { lx with keyAllowed := false }

def directive? (lx : Lexer) : Option Lexer := do
  let lx ← lx.closeAll?
  let (name, cur) := (lx.cursor.skip 1).span isNameChar
  if name.isEmpty || !startsBlank cur.rest then none
  let (t, cur) ← directiveToken? name cur
  return lx.emit t (← cur.endLine?)

def marker? (lx : Lexer) : Option Lexer := do
  let lx ← lx.closeAll?
  let t := if lx.cursor.rest.head? = some '-' then .documentStart else .documentEnd
  return lx.emitMark t 3

/-! ### Collections -/

def openBracket? (t : Token) (lx : Lexer) : Option Lexer := do
  let lx ← lx.saveKey?
  let lx := { lx with key := none, outerKeys := lx.key :: lx.outerKeys, keyAllowed := true }
  return lx.emitMark t 1

def closeBracket? (t : Token) (lx : Lexer) : Option Lexer := do
  let lx ← lx.dropKey?
  let lx := match lx.outerKeys with
    | key :: outerKeys => { lx with key, outerKeys, keyAllowed := false }
    | [] => { lx with keyAllowed := false }
  return lx.emitMark t 1

def comma? (lx : Lexer) : Option Lexer := do
  let lx ← lx.dropKey?
  return { lx with keyAllowed := true }.emitMark .comma 1

def entry? (lx : Lexer) : Option Lexer := do
  let lx ← (← lx.openHere? .blockSeq).dropKey?
  return { lx with keyAllowed := true }.emitMark .entry 1

def key? (lx : Lexer) : Option Lexer := do
  let lx ← (← lx.openHere? .blockMap).dropKey?
  return { lx with keyAllowed := !lx.inFlow }.emitMark .key 1

/-- Puts the tokens of a key, and of its mapping if it is deeper, where the key began. -/
def insertKey (k : KeyPlace) (lx : Lexer) : Lexer :=
  let lx := { lx with
    tokens := lx.tokens.insertIdxIfInBounds k.position .key
    key := none
    keyAllowed := false }
  lx.openBlock .blockMap k.place.column k.position

/-- What comes before a value whose key is not a node on its line. -/
def loneValue? (lx : Lexer) : Option Lexer := do
  let lx ← (← lx.dropKey?).openHere? .blockMap
  return { lx with keyAllowed := !lx.inFlow }

/-- The colon of a value. A key that it does not reach is given up. -/
def value? (lx : Lexer) : Option Lexer := do
  let lx ← match lx.key.filter (·.reaches lx.cursor.place) with
    | some k => some (lx.insertKey k)
    | none => lx.loneValue?
  return lx.emitMark .value 1

/-! ### Nodes -/

/-- Whether the name of an anchor may end here. -/
def endsName (cs : List Char) : Bool :=
  startsBlank cs || cs.head?.any fun c => "?:,]\x7d%@`".toList.contains c

/-- The token with the name that follows its sign. -/
def name? (t : String → Token) (lx : Lexer) : Option Lexer := do
  let lx ← lx.saveKey?
  let (name, cur) := (lx.cursor.skip 1).span isNameChar
  if name.isEmpty || !endsName cur.rest then none
  return { lx with keyAllowed := false }.emit (t (String.ofList name)) cur

def tag? (lx : Lexer) : Option Lexer := do
  let lx ← lx.saveKey?
  let (tag, cur) ← Tag.scan? lx.inFlow lx.cursor
  return { lx with keyAllowed := false }.emit (.tag tag) cur

def blockScalar? (lx : Lexer) : Option Lexer := do
  let lx ← lx.dropKey?
  let (text, cur) ← block? lx.columns.head? lx.cursor
  return { lx with keyAllowed := true }.emit (.scalar text false) cur

def quotedScalar? (lx : Lexer) : Option Lexer := do
  let lx ← lx.saveKey?
  let (text, cur) ← quoted? lx.cursor
  return { lx with keyAllowed := false }.emit (.scalar text false) cur

def plainScalar? (lx : Lexer) : Option Lexer := do
  let lx ← lx.saveKey?
  let (text, keyAllowed, cur) ← plain? lx.inFlow lx.floor lx.cursor
  return { lx with keyAllowed }.emit (.scalar text true) cur

/-! ### Texts -/

/-- Takes the token that begins with `c`. -/
def token? (c : Char) (rest : List Char) (lx : Lexer) : Option Lexer :=
  let alone := startsBlank rest
  if lx.column = 0 && c = '%' then lx.directive?
  else if lx.column = 0 && startsMarker (c :: rest) then lx.marker?
  else if c = '[' then lx.openBracket? .flowSeq
  else if c = '{' then lx.openBracket? .flowMap
  else if c = ']' then lx.closeBracket? .flowSeqEnd
  else if c = '}' then lx.closeBracket? .flowMapEnd
  else if c = ',' then lx.comma?
  else if c = '-' && alone then lx.entry?
  else if c = '?' && (lx.inFlow || alone) then lx.key?
  else if c = ':' && (lx.inFlow || alone) then lx.value?
  else if c = '*' then lx.name? .reference
  else if c = '&' then lx.name? .anchor
  else if c = '!' then lx.tag?
  else if (c = '|' || c = '>') && !lx.inFlow then lx.blockScalar?
  else if c = '\'' || c = '"' then lx.quotedScalar?
  else if startsPlain lx.inFlow (c :: rest) then lx.plainScalar?
  else none

/-- Takes all tokens. Each takes up a character or more, so a step for each character is enough. -/
def run? : (steps : Nat) → Lexer → Option (Array Token)
  | 0, _ => none
  | steps + 1, lx =>
    let lx := lx.toToken
    match lx.cursor.rest with
    | [] => (lx.closeBlocks 0).dropKey?.map (·.tokens)
    | c :: rest =>
      match (lx.closeBlocks (lx.column + 1)).token? c rest with
      | some lx => run? steps lx
      | none => none

end Lexer

/-- The tokens of a text. -/
def Token.ofText? (s : String) : Option (List Token) :=
  let cs := s.toList
  if cs.all isAllowed then ((Lexer.start (normalizeLines cs)).run? (cs.length + 1)).map (·.toList)
  else none

end MoveTx.Yaml
