import MoveTx.Bytes

/-!
# SHA-256

The padded message is taken in blocks of 64 bytes, each expanded to 64 words that drive as many
rounds of the compression.
-/

namespace MoveTx.Sha256

def initial : Array UInt32 :=
  #[
    0x6a09e667, 0xbb67ae85, 0x3c6ef372, 0xa54ff53a, 0x510e527f, 0x9b05688c,
    0x1f83d9ab, 0x5be0cd19]

def roundConstants : Array UInt32 :=
  #[
    0x428a2f98, 0x71374491, 0xb5c0fbcf, 0xe9b5dba5, 0x3956c25b, 0x59f111f1,
    0x923f82a4, 0xab1c5ed5, 0xd807aa98, 0x12835b01, 0x243185be, 0x550c7dc3,
    0x72be5d74, 0x80deb1fe, 0x9bdc06a7, 0xc19bf174, 0xe49b69c1, 0xefbe4786,
    0x0fc19dc6, 0x240ca1cc, 0x2de92c6f, 0x4a7484aa, 0x5cb0a9dc, 0x76f988da,
    0x983e5152, 0xa831c66d, 0xb00327c8, 0xbf597fc7, 0xc6e00bf3, 0xd5a79147,
    0x06ca6351, 0x14292967, 0x27b70a85, 0x2e1b2138, 0x4d2c6dfc, 0x53380d13,
    0x650a7354, 0x766a0abb, 0x81c2c92e, 0x92722c85, 0xa2bfe8a1, 0xa81a664b,
    0xc24b8b70, 0xc76c51a3, 0xd192e819, 0xd6990624, 0xf40e3585, 0x106aa070,
    0x19a4c116, 0x1e376c08, 0x2748774c, 0x34b0bcb5, 0x391c0cb3, 0x4ed8aa4a,
    0x5b9cca4f, 0x682e6ff3, 0x748f82ee, 0x78a5636f, 0x84c87814, 0x8cc70208,
    0x90befffa, 0xa4506ceb, 0xbef9a3f7, 0xc67178f2]

def rotateRight (w : UInt32) (n : UInt32) : UInt32 :=
  (w >>> n) ||| (w <<< (32 - n))

/-- The message, a one bit, zeros, and the length in bits, in whole blocks. -/
def padded (message : Bytes) : Bytes :=
  let zeros := (64 - (message.length + 9) % 64) % 64
  message ++ 0x80 :: List.replicate zeros 0 ++ bigEndian 8 (8 * message.length)

/-- The big-endian words of a block. -/
def wordsOf (block : Bytes) : Array UInt32 :=
  ((List.range 16).map fun k => UInt32.ofNat (ofBigEndian ((block.drop (4 * k)).take 4))).toArray

/-- Appends one word computed from those sixteen, fifteen, seven and two places back. -/
def extend (words : Array UInt32) (k : Nat) : Array UInt32 :=
  let w15 := words.getD (k - 15) 0
  let w2 := words.getD (k - 2) 0
  let s0 := rotateRight w15 7 ^^^ rotateRight w15 18 ^^^ (w15 >>> 3)
  let s1 := rotateRight w2 17 ^^^ rotateRight w2 19 ^^^ (w2 >>> 10)
  words.push (words.getD (k - 16) 0 + s0 + words.getD (k - 7) 0 + s1)

/-- The eight working words of the compression. -/
structure Working where
  a : UInt32
  b : UInt32
  c : UInt32
  d : UInt32
  e : UInt32
  f : UInt32
  g : UInt32
  h : UInt32

def Working.ofArray (x : Array UInt32) : Working :=
  ⟨x.getD 0 0, x.getD 1 0, x.getD 2 0, x.getD 3 0, x.getD 4 0, x.getD 5 0, x.getD 6 0, x.getD 7 0⟩

def Working.toList (s : Working) : List UInt32 :=
  [s.a, s.b, s.c, s.d, s.e, s.f, s.g, s.h]

/-- One round, with a message word and a round constant added up in `w`. -/
def Working.round (s : Working) (w : UInt32) : Working :=
  let s1 := rotateRight s.e 6 ^^^ rotateRight s.e 11 ^^^ rotateRight s.e 25
  let choice := (s.e &&& s.f) ^^^ (~~~s.e &&& s.g)
  let t1 := s.h + s1 + choice + w
  let s0 := rotateRight s.a 2 ^^^ rotateRight s.a 13 ^^^ rotateRight s.a 22
  let majority := (s.a &&& s.b) ^^^ (s.a &&& s.c) ^^^ (s.b &&& s.c)
  ⟨t1 + (s0 + majority), s.a, s.b, s.c, s.d + t1, s.e, s.f, s.g⟩

/-- Takes one block into the chain value. -/
def compress (chain : Array UInt32) (block : Bytes) : Array UInt32 :=
  let words := (List.range' 16 48).foldl extend (wordsOf block)
  let s := (List.range 64).foldl
    (fun s k => s.round (words.getD k 0 + roundConstants.getD k 0)) (Working.ofArray chain)
  (List.zipWith (· + ·) chain.toList s.toList).toArray

/-- Takes whole blocks into the chain value. -/
def compressAll (chain : Array UInt32) (bs : Bytes) : Array UInt32 :=
  if bs.length < 64 then chain
  else compressAll (compress chain (bs.take 64)) (bs.drop 64)
termination_by bs.length
decreasing_by simp only [List.length_drop]; omega

def blockSize : Nat := 64

/-- The 32 bytes of the hash of a message. -/
def hash (message : Bytes) : Bytes :=
  (compressAll initial (padded message)).toList.flatMap fun w => bigEndian 4 w.toNat

end MoveTx.Sha256
