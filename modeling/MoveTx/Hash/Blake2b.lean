import MoveTx.Bytes

/-!
# BLAKE2b with 32 bytes of output

The message is taken in blocks of 128 bytes. A `Hasher` holds the chain value, the count of bytes
compressed so far and the bytes that still wait, so a message can be given in pieces; `hash` takes it
whole.
-/

namespace MoveTx.Blake2b

/-- The chain value before the output length is mixed in. -/
def initial : Array UInt64 :=
  #[
    0x6a09e667f3bcc908, 0xbb67ae8584caa73b, 0x3c6ef372fe94f82b, 0xa54ff53a5f1d36f1,
    0x510e527fade682d1, 0x9b05688c2b3e6c1f, 0x1f83d9abfb41bd6b, 0x5be0cd19137e2179]

/-- The order in which a round takes the message words, one row for each of ten rounds. -/
def schedule : Array (Array Nat) :=
  #[
    #[0, 1, 2, 3, 4, 5, 6, 7, 8, 9, 10, 11, 12, 13, 14, 15],
    #[14, 10, 4, 8, 9, 15, 13, 6, 1, 12, 0, 2, 11, 7, 5, 3],
    #[11, 8, 12, 0, 5, 2, 15, 13, 10, 14, 3, 6, 7, 1, 9, 4],
    #[7, 9, 3, 1, 13, 12, 11, 14, 2, 6, 5, 10, 4, 0, 15, 8],
    #[9, 0, 5, 7, 2, 4, 10, 15, 14, 1, 11, 12, 6, 8, 3, 13],
    #[2, 12, 6, 10, 0, 11, 8, 3, 4, 13, 7, 5, 15, 14, 1, 9],
    #[12, 5, 1, 15, 14, 13, 4, 10, 0, 7, 6, 3, 9, 2, 8, 11],
    #[13, 11, 7, 14, 12, 1, 3, 9, 5, 0, 15, 4, 8, 6, 2, 10],
    #[6, 15, 14, 9, 11, 3, 0, 8, 12, 2, 13, 7, 1, 4, 10, 5],
    #[10, 2, 8, 4, 7, 6, 1, 5, 15, 11, 9, 14, 3, 12, 13, 0]]

def blockSize : Nat := 128

def rotateRight (w : UInt64) (n : UInt64) : UInt64 :=
  (w >>> n) ||| (w <<< (64 - n))

/-- Mixes two message words into four words of the working vector. -/
def mix (v : Array UInt64) (ia ib ic id : Nat) (x y : UInt64) : Array UInt64 :=
  let a := v.getD ia 0 + v.getD ib 0 + x
  let d := rotateRight (v.getD id 0 ^^^ a) 32
  let c := v.getD ic 0 + d
  let b := rotateRight (v.getD ib 0 ^^^ c) 24
  let a := a + b + y
  let d := rotateRight (d ^^^ a) 16
  let c := c + d
  let b := rotateRight (b ^^^ c) 63
  (((v.setIfInBounds ia a).setIfInBounds ib b).setIfInBounds ic c).setIfInBounds id d

/-- The columns and diagonals of the working vector that a round mixes, in order. -/
def quarters : List (Nat × Nat × Nat × Nat) :=
  [(0, 4, 8, 12), (1, 5, 9, 13), (2, 6, 10, 14), (3, 7, 11, 15),
    (0, 5, 10, 15), (1, 6, 11, 12), (2, 7, 8, 13), (3, 4, 9, 14)]

def round (words : Array UInt64) (v : Array UInt64) (index : Nat) : Array UInt64 :=
  let order := schedule.getD (index % 10) #[]
  (quarters.zipIdx).foldl
    (fun v ((a, b, c, d), k) =>
      mix v a b c d (words.getD (order.getD (2 * k) 0) 0) (words.getD (order.getD (2 * k + 1) 0) 0))
    v

/-- The little-endian words of a block, filled up with zeros. -/
def wordsOf (block : Bytes) : Array UInt64 :=
  let padded := block ++ List.replicate (blockSize - block.length) 0
  ((List.range 16).map fun k => UInt64.ofNat (ofLittleEndian ((padded.drop (8 * k)).take 8))).toArray

/-- Takes one block into the chain value. `count` is the number of message bytes up to its end. -/
def compress (chain : Array UInt64) (block : Bytes) (count : Nat) (last : Bool) : Array UInt64 :=
  let start := chain ++ initial
  let start := start.modify 12 (· ^^^ UInt64.ofNat count)
  let start := start.modify 13 (· ^^^ UInt64.ofNat (count / UInt64.size))
  let start := if last then start.modify 14 (~~~ ·) else start
  let words := wordsOf block
  let v := (List.range 12).foldl (round words) start
  ((List.range 8).map fun k => chain.getD k 0 ^^^ v.getD k 0 ^^^ v.getD (k + 8) 0).toArray

structure Hasher where
  chain : Array UInt64
  /-- Message bytes compressed so far. -/
  count : Nat
  /-- Message bytes that wait for the rest of their block. -/
  waiting : Bytes

namespace Hasher

/-- Before any message byte, with the output length of 32 in the chain value. -/
def start : Hasher :=
  ⟨initial.modify 0 (· ^^^ 0x01010020), 0, []⟩

/-- Compresses blocks while more than one block of `bs` is left. -/
def compressBlocks (chain : Array UInt64) (count : Nat) (bs : Bytes) : Hasher :=
  if bs.length ≤ blockSize then ⟨chain, count, bs⟩
  else
    compressBlocks (compress chain (bs.take blockSize) (count + blockSize) false)
      (count + blockSize) (bs.drop blockSize)
termination_by bs.length
decreasing_by simp only [blockSize, List.length_drop] at *; omega

/-- Takes in the next piece of the message. -/
def update (h : Hasher) (piece : Bytes) : Hasher :=
  compressBlocks h.chain h.count (h.waiting ++ piece)

/-- The bytes of the chain value after the last block. -/
def outputBytes (h : Hasher) : Bytes :=
  let chain := compress h.chain h.waiting (h.count + h.waiting.length) true
  (chain.toList.take 4).flatMap fun w => littleEndian 8 w.toNat

/-- The hash of all pieces taken in. -/
def finish (h : Hasher) : Bytes32 :=
  FixedBytes.ofNat (ofBigEndian h.outputBytes)

end Hasher

/-- The hash of a whole message. -/
def hash (message : Bytes) : Bytes32 :=
  (Hasher.start.update message).finish

end MoveTx.Blake2b
