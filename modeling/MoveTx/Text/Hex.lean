import MoveTx.Bytes

/-!
# Hexadecimal text

`Hex.encode` writes two lowercase digits for each byte. `Hex.decode?` reads digits of either case and
refuses an odd count.
-/

namespace MoveTx.Hex

/-- The lowercase digit of a number below 16. -/
def digit (n : Nat) : Char :=
  if n < 10 then Char.ofNat ('0'.toNat + n) else Char.ofNat ('a'.toNat + (n - 10))

/-- The value of a digit of either case. -/
def value? (c : Char) : Option Nat :=
  if '0' ≤ c ∧ c ≤ '9' then some (c.toNat - '0'.toNat)
  else if 'a' ≤ c ∧ c ≤ 'f' then some (c.toNat - 'a'.toNat + 10)
  else if 'A' ≤ c ∧ c ≤ 'F' then some (c.toNat - 'A'.toNat + 10)
  else none

/-- Whether `c` is a digit of either case. -/
def isDigit (c : Char) : Bool :=
  (value? c).isSome

/-- The two digits of each byte in turn. -/
def encodeChars (bs : Bytes) : List Char :=
  bs.flatMap fun b => [digit (b.toNat / 16), digit (b.toNat % 16)]

def encode (bs : Bytes) : String :=
  String.ofList (encodeChars bs)

/-- Reads pairs of digits. -/
def decodeChars? : List Char → Option Bytes
  | [] => some []
  | [_] => none
  | hi :: lo :: rest => do
    let h ← value? hi
    let l ← value? lo
    let bs ← decodeChars? rest
    return UInt8.ofNat (16 * h + l) :: bs

def decode? (s : String) : Option Bytes :=
  decodeChars? s.toList

/-- The two digits of one byte. -/
def ofByte (b : UInt8) : String :=
  encode [b]

end MoveTx.Hex
