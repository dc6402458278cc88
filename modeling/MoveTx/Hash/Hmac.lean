import MoveTx.Hash.Sha256

/-!
# Keyed hashing

HMAC over SHA-256: the key, filled up to a block, enters the inner and the outer hash under two
different masks.
-/

namespace MoveTx.Hmac

/-- The key as one block. A key longer than a block is hashed first. -/
def blockKey (key : Bytes) : Bytes :=
  let key := if Sha256.blockSize < key.length then Sha256.hash key else key
  key ++ List.replicate (Sha256.blockSize - key.length) 0

/-- The 32-byte code of a message under a key. -/
def sha256 (key message : Bytes) : Bytes :=
  let k := blockKey key
  Sha256.hash (k.map (· ^^^ 0x5c) ++ Sha256.hash (k.map (· ^^^ 0x36) ++ message))

end MoveTx.Hmac
