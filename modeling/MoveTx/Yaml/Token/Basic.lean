import MoveTx.Yaml.Tag

/-!
# Tokens

The words of the notation. The start and the end of a block collection, and the key of an entry, are tokens
of their own although indentation alone may show them.
-/

namespace MoveTx.Yaml

inductive Token
  /-- A directive that gives the version of the notation. -/
  | version (major minor : Nat)
  /-- A directive that says what a handle stands for. -/
  | handle (name : String) (start : Bytes)
  | documentStart
  | documentEnd
  | blockSeq
  | blockMap
  | blockEnd
  | flowSeq
  | flowSeqEnd
  | flowMap
  | flowMapEnd
  /-- The dash of an item. -/
  | entry
  | comma
  | key
  | value
  /-- The name of an anchor in place of its node. -/
  | reference (name : String)
  | anchor (name : String)
  | tag (tag : Tag)
  | scalar (text : String) (plain : Bool)
deriving DecidableEq

end MoveTx.Yaml
