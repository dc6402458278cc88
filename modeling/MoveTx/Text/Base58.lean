import MoveTx.Bytes

/-!
# Base-58 text

A byte string is read as one big-endian number and written in base 58, with one leading `1` for each
leading zero byte.
-/

namespace MoveTx.Base58

/-- The digits in the order of their values. -/
def alphabet : List Char :=
  "123456789ABCDEFGHJKLMNPQRSTUVWXYZabcdefghijkmnopqrstuvwxyz".toList

/-- The digits of `n` in base `base`, least significant first, without leading zeros. -/
def digits (base n : Nat) : List Nat :=
  if _h : n = 0 ∨ base < 2 then [] else n % base :: digits base (n / base)
termination_by n
decreasing_by exact Nat.div_lt_self (by omega) (by omega)

/-- The number whose most significant digit comes first. -/
def ofDigits (base : Nat) (ds : List Nat) : Nat :=
  ds.foldl (fun n d => base * n + d) 0

def encodeChars (bs : Bytes) : List Char :=
  let zeros := bs.takeWhile (· == 0)
  zeros.map (fun _ => '1') ++ (digits 58 (ofBigEndian bs)).reverse.map fun d => alphabet.getD d '1'

def encode (bs : Bytes) : String :=
  String.ofList (encodeChars bs)

/-- The bytes of a text of base-58 digits, which may be of any length. -/
def decodeChars? (cs : List Char) : Option Bytes := do
  let ds ← cs.mapM fun c => alphabet.findIdx? (· == c)
  let zeros := ds.takeWhile (· == 0)
  return zeros.map (fun _ => 0) ++ (digits 256 (ofDigits 58 ds)).reverse.map UInt8.ofNat

def decode? (s : String) : Option Bytes :=
  decodeChars? s.toList

end MoveTx.Base58
