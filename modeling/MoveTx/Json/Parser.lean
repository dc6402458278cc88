import MoveTx.Json.Basic
import MoveTx.Text.Hex

/-!
# Reading JSON

`Json.parse?` reads a text that holds one value and nothing but blanks around it. Every function here
takes what it reads off the front of the characters and gives back the rest.
-/

namespace MoveTx.Json

def isSpace (c : Char) : Bool :=
  c == ' ' || c == '\n' || c == '\t' || c == '\r'

def skipSpace (cs : List Char) : List Char :=
  cs.dropWhile isSpace

/-! ### Texts -/

/-- A character of a text, or one half of a character beyond 16 bits. -/
def isHigh (n : Nat) : Bool :=
  0xd800 ≤ n && n < 0xdc00

def isLow (n : Nat) : Bool :=
  0xdc00 ≤ n && n < 0xe000

/-- The characters of code units, where two halves make one. Fails at a half alone. -/
def joinHalves : List Nat → Option (List Char)
  | [] => some []
  | [n] => if isHigh n || isLow n then none else some [Char.ofNat n]
  | n :: m :: rest =>
    if isHigh n then
      if isLow m then do
        let cs ← joinHalves rest
        return Char.ofNat (0x10000 + (n - 0xd800) * 0x400 + (m - 0xdc00)) :: cs
      else none
    else if isLow n then none
    else do
      let cs ← joinHalves (m :: rest)
      return Char.ofNat n :: cs

/-- What a letter after a backslash stands for. -/
def unescape? (c : Char) : Option Nat :=
  if c = '"' || c = '\\' || c = '/' then some c.toNat
  else if c = 'b' then some 8
  else if c = 'f' then some 12
  else if c = 'n' then some 10
  else if c = 'r' then some 13
  else if c = 't' then some 9
  else none

/-- The number of four hex digits. -/
def hexUnit? (a b c d : Char) : Option Nat := do
  let a ← Hex.value? a
  let b ← Hex.value? b
  let c ← Hex.value? c
  let d ← Hex.value? d
  return ((a * 16 + b) * 16 + c) * 16 + d

/-- The code units up to the closing quote. -/
def unitsOf : List Char → Option (List Nat × List Char)
  | [] => none
  | '"' :: rest => some ([], rest)
  | '\\' :: 'u' :: a :: b :: c :: d :: rest => do
    let n ← hexUnit? a b c d
    let (ns, rest) ← unitsOf rest
    return (n :: ns, rest)
  | '\\' :: c :: rest => do
    let n ← unescape? c
    let (ns, rest) ← unitsOf rest
    return (n :: ns, rest)
  | c :: rest =>
    if c = '\\' || c.toNat < 0x20 then none
    else do
      let (ns, rest) ← unitsOf rest
      return (c.toNat :: ns, rest)

/-- The text after an opening quote. -/
def stringOf (cs : List Char) : Option (Option String × List Char) := do
  let (units, rest) ← unitsOf cs
  return ((joinHalves units).map String.ofList, rest)

/-! ### Numbers -/

/-- One digit or more. -/
def digitsOf (cs : List Char) : Option (List Char × List Char) :=
  match cs.takeWhile Char.isDigit with
  | [] => none
  | digits => some (digits, cs.drop digits.length)

/-- The whole part, which begins with no zero unless it is one. -/
def wholeOf (cs : List Char) : Option (List Char × List Char) := do
  let (digits, rest) ← digitsOf cs
  if digits.head? = some '0' && digits.length ≠ 1 then none else return (digits, rest)

/-- A point and digits, if there are any. -/
def pointOf : List Char → Option (List Char × List Char)
  | '.' :: cs => do
    let (digits, rest) ← digitsOf cs
    return ('.' :: digits, rest)
  | cs => some ([], cs)

/-- An exponent, if there is one. -/
def exponentOf (cs : List Char) : Option (List Char × List Char) :=
  match cs with
  | e :: rest =>
    if e = 'e' || e = 'E' then
      match rest with
      | s :: after =>
        if s = '+' || s = '-' then do
          let (digits, rest) ← digitsOf after
          return (e :: s :: digits, rest)
        else do
          let (digits, rest) ← digitsOf rest
          return (e :: digits, rest)
      | [] => none
    else some ([], cs)
  | [] => some ([], [])

def numberOf (cs : List Char) : Option (Json × List Char) := do
  let (sign, cs) := match cs with
    | '-' :: rest => (['-'], rest)
    | cs => ([], cs)
  let (whole, cs) ← wholeOf cs
  let (point, cs) ← pointOf cs
  let (exponent, cs) ← exponentOf cs
  if sign.isEmpty && point.isEmpty && exponent.isEmpty then return (.natural (ofDigits whole), cs)
  else return (.number (sign ++ whole ++ point ++ exponent), cs)

/-! ### Values -/

/-- The value `j` after its name. -/
def literal (name : String) (j : Json) (cs : List Char) : Option (Json × List Char) :=
  if name.toList.isPrefixOf cs then some (j, cs.drop name.length) else none

mutual

def valueOf : (fuel : Nat) → List Char → Option (Json × List Char)
  | 0, _ => none
  | fuel + 1, cs =>
    match skipSpace cs with
    | [] => none
    | c :: rest =>
      if c = '"' then do
        let (s, rest) ← stringOf rest
        return (.string s, rest)
      else if c = '[' then do
        let (items, rest) ← if (skipSpace rest).head? = some ']' then some ([], skipSpace rest)
          else itemsOf fuel rest
        return (.array items, rest.drop 1)
      else if c = '{' then do
        let (entries, rest) ← if (skipSpace rest).head? = some '}' then some ([], skipSpace rest)
          else entriesOf fuel rest
        return (.object entries, rest.drop 1)
      else if c = 'n' then literal "null" .null (c :: rest)
      else if c = 't' then literal "true" (.bool true) (c :: rest)
      else if c = 'f' then literal "false" (.bool false) (c :: rest)
      else numberOf (c :: rest)

/-- One item or more, up to the closing bracket. -/
def itemsOf : (fuel : Nat) → List Char → Option (List Json × List Char)
  | 0, _ => none
  | fuel + 1, cs => do
    let (item, rest) ← valueOf fuel cs
    match skipSpace rest with
    | ',' :: rest =>
      let (items, rest) ← itemsOf fuel rest
      return (item :: items, rest)
    | ']' :: rest => return ([item], ']' :: rest)
    | _ => none

/-- One entry or more, up to the closing brace. -/
def entriesOf : (fuel : Nat) → List Char → Option (List (Option String × Json) × List Char)
  | 0, _ => none
  | fuel + 1, cs => do
    let '"' :: rest := skipSpace cs | none
    let (key, rest) ← stringOf rest
    let ':' :: rest := skipSpace rest | none
    let (value, rest) ← valueOf fuel rest
    match skipSpace rest with
    | ',' :: rest =>
      let (entries, rest) ← entriesOf fuel rest
      return ((key, value) :: entries, rest)
    | '}' :: rest => return ([(key, value)], '}' :: rest)
    | _ => none

end

/-- The value of a text. -/
def parse? (s : String) : Option Json := do
  let cs := s.toList
  let (j, rest) ← valueOf (2 * cs.length + 2) cs
  if (skipSpace rest).isEmpty then return j else none

end MoveTx.Json
