import MoveTx.Text.Hex
import MoveTx.Yaml.Cursor

/-!
# Tags

A tag is written as a handle and a suffix, and the handle stands for the start of a name that a directive
gives. Names are byte strings, in which an escape of a percent sign and two hex digits is a byte.
-/

namespace MoveTx.Yaml

/-- A tag as it is written. A tag that is written in full has an empty handle. -/
structure Tag where
  handle : String
  suffix : Bytes
deriving DecidableEq

namespace Tag

/-- The name of a tag that says nothing. -/
def plainName : Bytes := textBytes "!"

/-- The name of the type with one value, nothing. -/
def nullName : Bytes := textBytes "tag:yaml.org,2002:null"

/-- What the handles stand for that no directive gives. -/
def standardHandles : List (String × Bytes) :=
  [("!", textBytes "!"), ("!!", textBytes "tag:yaml.org,2002:")]

/-- The name of a tag, whose handle must be known. -/
def name? (handles : List (String × Bytes)) (t : Tag) : Option Bytes :=
  if t.handle.isEmpty then some t.suffix
  else (handles.lookup t.handle).map (· ++ t.suffix)

/-! ### Names -/

/-- Whether `c` may stand in a name. `listed` says whether commas and square brackets may. -/
def isUriChar (listed : Bool) (c : Char) : Bool :=
  isNameChar c || ";/?:@&=+$.%!~*'()".toList.contains c || (listed && ",[]".toList.contains c)

/-- How many bytes of a character come after its first one. -/
def continuation? (b : Nat) : Option Nat :=
  if b < 0x80 then some 0
  else if b < 0xc0 then none
  else if b < 0xe0 then some 1
  else if b < 0xf0 then some 2
  else if b < 0xf8 then some 3
  else none

/-- The bytes of a name, in reversed order after `done`. `pending` counts the bytes that the character
in escapes still lacks. -/
def unescapeUri? : (pending : Nat) → (done : Bytes) → List Char → Option Bytes
  | 0, done, [] => some done.reverse
  | _ + 1, _, [] => none
  | pending, done, '%' :: high :: low :: rest =>
    match Hex.value? high, Hex.value? low with
    | some h, some l =>
      let b := 16 * h + l
      let left := match pending with
        | 0 => continuation? b
        | n + 1 => if 0x80 ≤ b && b < 0xc0 then some n else none
      match left with
      | some n => unescapeUri? n (UInt8.ofNat b :: done) rest
      | none => none
    | _, _ => none
  | 0, done, c :: rest =>
    if c = '%' then none else unescapeUri? 0 (UInt8.ofNat c.toNat :: done) rest
  | _ + 1, _, _ :: _ => none

/-- The name that begins here, which may be empty. A zero byte ends it. -/
def uri? (listed : Bool) (cur : Cursor) : Option (Bytes × Cursor) := do
  let (written, cur) := cur.span (isUriChar listed)
  let bs ← unescapeUri? 0 [] written
  return (bs.takeWhile (· ≠ 0), cur)

/-- Whether a name with a character or more begins here. -/
def startsUri (listed : Bool) (cur : Cursor) : Bool :=
  cur.rest.head?.any (isUriChar listed)

/-! ### Handles -/

/-- The exclamation mark and the word that begin here, and whether another mark closes the handle. -/
def handle? (cur : Cursor) : Option (List Char × Bool × Cursor) :=
  if cur.rest.head? ≠ some '!' then none
  else
    let (word, cur) := (cur.skip 1).span isNameChar
    if cur.rest.head? = some '!' then some (word, true, cur.skip 1) else some (word, false, cur)

/-- The handle around a word. -/
def closedHandle (word : List Char) : String :=
  String.ofList ('!' :: (word ++ ['!']))

/-- The handle that a directive is about. -/
def directiveHandle? (cur : Cursor) : Option (String × Cursor) := do
  let (word, closed, cur) ← handle? cur
  if closed then return (closedHandle word, cur)
  else if word.isEmpty then return ("!", cur)
  else none

/-! ### Tags -/

/-- The tag between angle brackets that begins here. -/
def verbatim? (cur : Cursor) : Option (Tag × Cursor) := do
  let cur := cur.skip 2
  if !startsUri true cur then none
  let (suffix, cur) ← uri? true cur
  if cur.rest.head? = some '>' then return (⟨"", suffix⟩, cur.skip 1) else none

/-- The tag by handle and suffix that begins here. A mark alone is a name of its own. -/
def shorthand? (cur : Cursor) : Option (Tag × Cursor) := do
  let (word, closed, cur) ← handle? cur
  if closed && !startsUri false cur then none
  let (suffix, cur) ← uri? false cur
  if closed then return (⟨closedHandle word, suffix⟩, cur)
  let suffix := textBytes (String.ofList word) ++ suffix
  return (if suffix.isEmpty then ⟨"", plainName⟩ else ⟨"!", suffix⟩, cur)

/-- The tag that begins here. A blank must follow, or between brackets a comma. -/
def scan? (flow : Bool) (cur : Cursor) : Option (Tag × Cursor) := do
  let (tag, cur) ← if cur.rest.take 2 = ['!', '<'] then verbatim? cur else shorthand? cur
  if startsBlank cur.rest || (flow && cur.rest.head? = some ',') then return (tag, cur) else none

end Tag

end MoveTx.Yaml
