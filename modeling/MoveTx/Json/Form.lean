import MoveTx.Address
import MoveTx.Digest
import MoveTx.Identifier
import MoveTx.Json.Parser

/-!
# Types with a JSON form

`JsonForm` pairs the JSON of a type with its reader. A reader is told how many more arrays and objects
it may enter, one inside the other. A record is an object, in which other names are passed over and no
field may stand twice, or an array of the first fields. A variant is its name, or an object with its name
as only key.
-/

namespace MoveTx

class JsonForm (α : Type) where
  toJson : α → Json
  /-- The value, read in at most so many levels of nesting. -/
  ofJson? : (levels : Nat) → Json → Option α

export JsonForm (toJson ofJson?)

namespace Json

/-- The levels of nesting that are read from a text. -/
def maxLevels : Nat := 127

/-- The value of a JSON value, however deep. -/
def decode? {α : Type} [JsonForm α] (j : Json) : Option α :=
  ofJson? (j.depth + 1) j

/-- The value of a text. -/
def decodeText? {α : Type} [JsonForm α] (s : String) : Option α := do
  ofJson? maxLevels (← parse? s)

/-- The text of a value. -/
def encodeText {α : Type} [JsonForm α] (a : α) : String :=
  (toJson a).text

def string? : Json → Option String
  | .string s => s
  | _ => none

/-- The number, if it is a natural number below `bound`. -/
def natural? (bound : Nat) : Json → Option Nat
  | .natural n => if n < bound then some n else none
  | _ => none

/-- The items of an array. -/
def items? (levels : Nat) : Json → Option (List Json)
  | .array items => if 0 < levels then some items else none
  | _ => none

/-! ### Records -/

/-- The fields of a record that are there. -/
structure Fields where
  values : List (String × Json)
  /-- Whether they stand in order, without names. -/
  inOrder : Bool
  /-- The levels of nesting left for the values. -/
  levels : Nat

/-- Entries with a name out of `names`. Every key must be a text, and no name may stand twice. -/
def knownEntries? (names : List String) (entries : List (Option String × Json)) :
    Option (List (String × Json)) := do
  let named ← entries.mapM fun entry => entry.1.map fun key => (key, entry.2)
  let known := named.filter fun entry => names.contains entry.1
  if (known.map (·.1)).Nodup then return known else none

/-- Reads a record with fields of the given names. -/
def fields? (names : List String) (levels : Nat) : Json → Option Fields
  | .object entries => do
    let known ← knownEntries? names entries
    if 0 < levels then return ⟨known, false, levels - 1⟩ else none
  | .array items =>
    if 0 < levels && items.length ≤ names.length then some ⟨names.zip items, true, levels - 1⟩ else none
  | _ => none

namespace Fields

/-- The value of a field. -/
def get? (f : Fields) (name : String) : Option Json :=
  (f.values.find? fun entry => entry.1 == name).map (·.2)

/-- A field that must be there. -/
def required {α : Type} [JsonForm α] (f : Fields) (name : String) : Option α := do
  ofJson? f.levels (← f.get? name)

/-- A field with a default. -/
def withDefault {α : Type} [JsonForm α] (f : Fields) (name : String) (default : α) : Option α :=
  match f.get? name with
  | some j => ofJson? f.levels j
  | none => some default

/-- A field that may be missing where fields are named. -/
def optional {α : Type} [JsonForm (Option α)] (f : Fields) (name : String) : Option (Option α) :=
  match f.get? name with
  | some j => ofJson? f.levels j
  | none => if f.inOrder then none else some none

end Fields

/-! ### Variants -/

/-- A variant that has been named. -/
structure Variant where
  name : String
  content : Option Json
  /-- The levels of nesting left for the content. -/
  levels : Nat

def variant? (levels : Nat) : Json → Option Variant
  | .string (some name) => some ⟨name, none, levels⟩
  | .object [(some name, content)] => if 0 < levels then some ⟨name, some content, levels - 1⟩ else none
  | _ => none

/-- Whether the variant has no content, or a null for it. -/
def Variant.isUnit (v : Variant) : Bool :=
  match v.content with
  | none | some .null => true
  | some _ => false

/-- The content as a value. -/
def Variant.value? {α : Type} [JsonForm α] (v : Variant) : Option α := do
  ofJson? v.levels (← v.content)

/-- The object of a variant with content. -/
def ofVariant (name : String) (content : Json) : Json :=
  .ofFields [(name, content)]

/-- The variant without content that a table names. -/
def unitVariant? {α : Type} (table : List (String × α)) (levels : Nat) (j : Json) : Option α := do
  let v ← j.variant? levels
  if v.isUnit then (table.find? fun entry => entry.1 == v.name).map (·.2) else none

end Json

/-! ### Basic types -/

instance : JsonForm Bool where
  toJson := .bool
  ofJson? _
    | .bool b => some b
    | _ => none

instance : JsonForm UInt64 where
  toJson n := .natural n.toNat
  ofJson? _ j := (j.natural? UInt64.size).map UInt64.ofNat

instance : JsonForm UInt16 where
  toJson n := .natural n.toNat
  ofJson? _ j := (j.natural? UInt16.size).map UInt16.ofNat

instance : JsonForm String where
  toJson := .ofString
  ofJson? _ j := j.string?

instance {α : Type} [JsonForm α] : JsonForm (List α) where
  toJson as := .array (as.map toJson)
  ofJson? levels j := do (← j.items? levels).mapM (ofJson? (levels - 1))

instance {α : Type} [JsonForm α] : JsonForm (Option α) where
  toJson
    | none => .null
    | some a => toJson a
  ofJson? levels
    | .null => some none
    | j => some <$> ofJson? levels j

instance : JsonForm Address where
  toJson a := .ofString a.text
  ofJson? _ j := do (Address.parse (← j.string?)).toOption

instance : JsonForm Digest where
  toJson d := .ofString d.text
  ofJson? _ j := do (Digest.parse (← j.string?)).toOption

instance : JsonForm Identifier where
  toJson i := .ofString i.name
  ofJson? _ j := do Identifier.ofString? (← j.string?)

end MoveTx
