import MoveTx.Codec.Basic
import MoveTx.Text.Base58
import MoveTx.TextError

/-!
# Digests

A digest is 32 bytes, written in base 58. Its binary form is a byte string whose count must be 32.
-/

namespace MoveTx

structure Digest where
  raw : Bytes32
  deriving DecidableEq

namespace Digest

def bytes (d : Digest) : Bytes :=
  d.raw.toBytes

def zero : Digest := ⟨FixedBytes.ofNat 0⟩

instance : Inhabited Digest := ⟨zero⟩

/-- The base-58 text. -/
def text (d : Digest) : String :=
  Base58.encode d.bytes

def hexText (d : Digest) : String :=
  Hex.encode d.bytes

/-- The text under the name of the type. -/
def describe (d : Digest) : String :=
  "Digest(" ++ d.text ++ ")"

/-- Reads the base-58 text of exactly 32 bytes. -/
def parse (s : String) : Except TextError Digest :=
  if s.isEmpty then .error (.digest s .empty)
  else
    match Base58.decode? s with
    | none => .error (.digest s .notBase58)
    | some bs =>
      match FixedBytes.ofBytes? 32 bs with
      | none => .error (.digest s .notThirtyTwoBytes)
      | some raw => .ok ⟨raw⟩

instance : Codec Digest where
  encode d := Codec.bytes d.bytes
  decode := do
    let n ← Reader.length
    if n = 32 then Digest.mk <$> Reader.fixed 32
    else throw (.invalidLength "Digest" 32 n)

end Digest

end MoveTx
