import MoveTx.Codec.Basic
import MoveTx.Text.Utf8
import MoveTx.TextError

/-!
# Addresses

An address is 32 bytes and names an account, a package or an object. Its text is `0x` and hex digits:
all 64 when written in full, and as few as one when read or written short. The order of addresses is
that of their bytes.
-/

namespace MoveTx

structure Address where
  raw : Bytes32
  deriving DecidableEq

namespace Address

/-- The count of hex digits of a full address. -/
def digitCount : Nat := 64

def bytes (a : Address) : Bytes :=
  a.raw.toBytes

/-- The address whose big-endian value is `n`. -/
def ofNat (n : Nat) : Address :=
  ⟨FixedBytes.ofNat n⟩

def ofBytes? (bs : Bytes) : Option Address :=
  Address.mk <$> FixedBytes.ofBytes? 32 bs

def before (a b : Address) : Bool :=
  a.raw.before b.raw

instance : Inhabited Address := ⟨ofNat 0⟩

instance : Codec Address where
  encode a := a.bytes
  decode := Address.mk <$> Reader.fixed 32

/-! ### Text -/

/-- The digits after an optional `0x` or `0X`. -/
def digitsOf : List Char → List Char
  | '0' :: 'x' :: rest => rest
  | '0' :: 'X' :: rest => rest
  | cs => cs

/-- Reads 1 to 64 hex digits as a number. Too many bytes of text are found before a wrong digit. -/
def parse (s : String) : Except TextError Address :=
  let digits := digitsOf s.toList
  if digits.isEmpty then .error (.address s .empty)
  else if digitCount < Text.utf8Length digits then .error (.address s .tooLong)
  else
    let padded := List.replicate (digitCount - digits.length) '0' ++ digits
    match Hex.decodeChars? padded >>= ofBytes? with
    | some a => .ok a
    | none => .error (.address s .notHex)

/-- All 64 digits. -/
def unprefixed (a : Address) : String :=
  Hex.encode a.bytes

/-- `0x` and all 64 digits. -/
def text (a : Address) : String :=
  "0x" ++ a.unprefixed

/-- `0x` and the digits without leading zeros, of which one stays for the zero address. -/
def shortText (a : Address) : String :=
  match (Hex.encodeChars a.bytes).dropWhile (· == '0') with
  | [] => "0x0"
  | digits => "0x" ++ String.ofList digits

/-- The short text under the name of the type. -/
def describe (a : Address) : String :=
  "Address(" ++ a.shortText ++ ")"

/-! ### Well-known packages and objects -/

def moveStdlib : Address := ofNat 0x1
def suiFramework : Address := ofNat 0x2
def suiSystem : Address := ofNat 0x3
def systemState : Address := ofNat 0x5
def clock : Address := ofNat 0x6
def random : Address := ofNat 0x8
def denyList : Address := ofNat 0x403

/-- Whether the object is one of those that a transaction may only read. -/
def isAlwaysImmutable (a : Address) : Bool :=
  a == clock || a == random || a == denyList

/-! ### Sets of addresses -/

/-- Adds an address to an ascending list of distinct addresses. -/
def insert (a : Address) : List Address → List Address
  | [] => [a]
  | b :: rest =>
    if a = b then b :: rest
    else if a.before b then a :: b :: rest
    else b :: insert a rest

end Address

end MoveTx
