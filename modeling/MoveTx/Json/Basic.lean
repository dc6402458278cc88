/-!
# JSON values

A value is a tree. Objects keep their entries in order, with repetitions. A text is nothing when its
escapes stand for no Unicode text: such a text can be passed over, but not used. `Json.text` writes a
value without blanks.
-/

namespace MoveTx

inductive Json
  | null
  | bool (b : Bool)
  /-- A number of digits alone. -/
  | natural (n : Nat)
  /-- Any other number, as it is written. -/
  | number (literal : List Char)
  | string (s : Option String)
  | array (items : List Json)
  | object (entries : List (Option String × Json))

namespace Json

/-- A text. -/
def ofString (s : String) : Json := .string (some s)

/-- The object with fields in the order given. -/
def ofFields (fields : List (String × Json)) : Json :=
  .object (fields.map fun field => (some field.1, field.2))

/-! ### Writing -/

/-- The escaped form of one character: quotes, backslashes and control characters. -/
def escape (c : Char) : List Char :=
  if c = '"' then ['\\', '"']
  else if c = '\\' then ['\\', '\\']
  else if c = '\n' then ['\\', 'n']
  else if c = '\r' then ['\\', 'r']
  else if c = '\t' then ['\\', 't']
  else if c.toNat = 8 then ['\\', 'b']
  else if c.toNat = 12 then ['\\', 'f']
  else if c.toNat < 0x20 then
    ['\\', 'u', '0', '0', Nat.digitChar (c.toNat / 16), Nat.digitChar (c.toNat % 16)]
  else [c]

def quotedChars (s : String) : List Char :=
  '"' :: s.toList.flatMap escape ++ ['"']

mutual

def chars : Json → List Char
  | .null => "null".toList
  | .bool b => if b then "true".toList else "false".toList
  | .natural n => Nat.toDigits 10 n
  | .number literal => literal
  | .string s => quotedChars (s.getD "")
  | .array items => '[' :: itemChars items ++ [']']
  | .object entries => '{' :: entryChars entries ++ ['}']

/-- The items with commas between them. -/
def itemChars : List Json → List Char
  | [] => []
  | [j] => chars j
  | j :: rest => chars j ++ ',' :: itemChars rest

/-- The entries with commas between them. -/
def entryChars : List (Option String × Json) → List Char
  | [] => []
  | [(key, j)] => quotedChars (key.getD "") ++ ':' :: chars j
  | (key, j) :: rest => quotedChars (key.getD "") ++ ':' :: chars j ++ ',' :: entryChars rest

end

/-- The value on one line, without blanks. -/
def text (j : Json) : String :=
  String.ofList j.chars

/-! ### Nesting -/

mutual

/-- The deepest nesting of arrays and objects, none for other values. -/
def depth : Json → Nat
  | .array items => depthOfItems items + 1
  | .object entries => depthOfEntries entries + 1
  | _ => 0

def depthOfItems : List Json → Nat
  | [] => 0
  | j :: rest => max (depth j) (depthOfItems rest)

def depthOfEntries : List (Option String × Json) → Nat
  | [] => 0
  | (_, j) :: rest => max (depth j) (depthOfEntries rest)

end

/-! ### Values that can be held -/

/-- The first value that rounds to no number of double precision. -/
def firstInfinite : Nat := Nat.pow 2 1024 - Nat.pow 2 970

/-- The number of a run of digits. -/
def ofDigits (cs : List Char) : Nat :=
  cs.foldl (fun n c => 10 * n + (c.toNat - '0'.toNat)) 0

/-- Whether `n * 10 ^ e`, where `n` has `digits` digits, is below `firstInfinite`. -/
def isBounded (n digits : Nat) (e : Int) : Bool :=
  if n = 0 || digits + e < 308 then true
  else if 310 < digits + e then false
  else
    match e with
    | .ofNat e => n * Nat.pow 10 e < firstInfinite
    | .negSucc e => n < firstInfinite * Nat.pow 10 (e + 1)

/-- Whether a written number is finite in double precision. -/
def isFinite (literal : List Char) : Bool :=
  let unsigned := if literal.head? = some '-' then literal.drop 1 else literal
  let whole := unsigned.takeWhile Char.isDigit
  let rest := unsigned.drop whole.length
  let part := if rest.head? = some '.' then (rest.drop 1).takeWhile Char.isDigit else []
  let rest := if rest.head? = some '.' then rest.drop (part.length + 1) else rest
  let exponent := (rest.drop 1).filter Char.isDigit
  let e : Int := if (rest.drop 1).head? = some '-' then -(ofDigits exponent : Int) else ofDigits exponent
  let digits := (whole ++ part).dropWhile (· == '0')
  isBounded (ofDigits digits) digits.length (e - part.length)

mutual

/-- Whether a value can be kept until it is known what it is for: every text in it is one, and every
number is finite. -/
def isHoldable : Json → Bool
  | .null | .bool _ => true
  | .natural n => n < firstInfinite
  | .number literal => isFinite literal
  | .string s => s.isSome
  | .array items => areHoldable items
  | .object entries => entriesHoldable entries

def areHoldable : List Json → Bool
  | [] => true
  | j :: rest => isHoldable j && areHoldable rest

def entriesHoldable : List (Option String × Json) → Bool
  | [] => true
  | (key, j) :: rest => key.isSome && isHoldable j && entriesHoldable rest

end

end Json

end MoveTx
