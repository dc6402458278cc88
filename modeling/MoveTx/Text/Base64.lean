import MoveTx.Bytes

/-!
# Base-64 text

Three bytes make four digits, and a shorter last group is filled with `=`. Reading accepts exactly
what writing produces: the filling must be there, and the bits it leaves unused must be zero.
-/

namespace MoveTx.Base64

/-- The digits in the order of their values. -/
def alphabet : List Char :=
  "ABCDEFGHIJKLMNOPQRSTUVWXYZabcdefghijklmnopqrstuvwxyz0123456789+/".toList

/-- The digit of a number below 64. -/
def digit (n : Nat) : Char :=
  alphabet.getD n '='

/-- The value of a digit. -/
def value? (c : Char) : Option Nat :=
  if 'A' ≤ c ∧ c ≤ 'Z' then some (c.toNat - 'A'.toNat)
  else if 'a' ≤ c ∧ c ≤ 'z' then some (c.toNat - 'a'.toNat + 26)
  else if '0' ≤ c ∧ c ≤ '9' then some (c.toNat - '0'.toNat + 52)
  else if c = '+' then some 62
  else if c = '/' then some 63
  else none

def encodeChars : Bytes → List Char
  | [] => []
  | [a] => [digit (a.toNat / 4), digit (a.toNat % 4 * 16), '=', '=']
  | [a, b] =>
    [digit (a.toNat / 4), digit (a.toNat % 4 * 16 + b.toNat / 16), digit (b.toNat % 16 * 4), '=']
  | a :: b :: c :: rest =>
    digit (a.toNat / 4) :: digit (a.toNat % 4 * 16 + b.toNat / 16) ::
      digit (b.toNat % 16 * 4 + c.toNat / 64) :: digit (c.toNat % 64) :: encodeChars rest

def encode (bs : Bytes) : String :=
  String.ofList (encodeChars bs)

/-- The one byte of a last group of two digits. -/
def oneByte? (a b : Char) : Option Bytes := do
  let x ← value? a
  let y ← value? b
  if y % 16 = 0 then some [UInt8.ofNat (x * 4 + y / 16)] else none

/-- The two bytes of a last group of three digits. -/
def twoBytes? (a b c : Char) : Option Bytes := do
  let x ← value? a
  let y ← value? b
  let z ← value? c
  if z % 4 = 0 then some [UInt8.ofNat (x * 4 + y / 16), UInt8.ofNat (y % 16 * 16 + z / 4)] else none

/-- The three bytes of a full group. -/
def threeBytes? (a b c d : Char) : Option Bytes := do
  let x ← value? a
  let y ← value? b
  let z ← value? c
  let w ← value? d
  return [UInt8.ofNat (x * 4 + y / 16), UInt8.ofNat (y % 16 * 16 + z / 4),
    UInt8.ofNat (z % 4 * 64 + w)]

def decodeChars? : List Char → Option Bytes
  | [] => some []
  | [a, b, c, d] =>
    if d ≠ '=' then threeBytes? a b c d
    else if c ≠ '=' then twoBytes? a b c
    else oneByte? a b
  | a :: b :: c :: d :: rest => do
    let group ← threeBytes? a b c d
    let bytes ← decodeChars? rest
    return group ++ bytes
  | _ => none

def decode? (s : String) : Option Bytes :=
  decodeChars? s.toList

end MoveTx.Base64
