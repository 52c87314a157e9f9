import TransferBoard.Digest.Block

/-!
# The MD5 message digest

Four rounds of sixteen steps stir a block into four words.

## Main definitions

* `md5` — the block hash; `md5.hash` gives sixteen bytes.
-/

namespace TransferBoard

namespace Md5

/-- The chaining value: four words. -/
structure Words where
  a : UInt32
  b : UInt32
  c : UInt32
  d : UInt32

/-- The whole parts of `2 ^ 32 * |sin i|` for `i` from 1 to 64. -/
def constants : List UInt32 :=
  [0xd76aa478, 0xe8c7b756, 0x242070db, 0xc1bdceee, 0xf57c0faf, 0x4787c62a,
   0xa8304613, 0xfd469501, 0x698098d8, 0x8b44f7af, 0xffff5bb1, 0x895cd7be,
   0x6b901122, 0xfd987193, 0xa679438e, 0x49b40821, 0xf61e2562, 0xc040b340,
   0x265e5a51, 0xe9b6c7aa, 0xd62f105d, 0x02441453, 0xd8a1e681, 0xe7d3fbc8,
   0x21e1cde6, 0xc33707d6, 0xf4d50d87, 0x455a14ed, 0xa9e3e905, 0xfcefa3f8,
   0x676f02d9, 0x8d2a4c8a, 0xfffa3942, 0x8771f681, 0x6d9d6122, 0xfde5380c,
   0xa4beea44, 0x4bdecfa9, 0xf6bb4b60, 0xbebfbc70, 0x289b7ec6, 0xeaa127fa,
   0xd4ef3085, 0x04881d05, 0xd9d4d039, 0xe6db99e5, 0x1fa27cf8, 0xc4ac5665,
   0xf4292244, 0x432aff97, 0xab9423a7, 0xfc93a039, 0x655b59c3, 0x8f0ccc92,
   0xffeff47d, 0x85845dd1, 0x6fa87e4f, 0xfe2ce6e0, 0xa3014314, 0x4e0811a1,
   0xf7537e82, 0xbd3af235, 0x2ad7d2bb, 0xeb86d391]

/-- The turns of the four steps that repeat within each round. -/
def turns : List UInt32 :=
  [7, 12, 17, 22, 5, 9, 14, 20, 4, 11, 16, 23, 6, 10, 15, 21]

/-- The sixteen words of a block, the low byte of each first. -/
def words (block : Bytes) : Array UInt32 :=
  Array.ofFn fun i : Fin 16 =>
    byteAt block (4 * i) ||| (byteAt block (4 * i + 1) <<< 8)
      ||| (byteAt block (4 * i + 2) <<< 16) ||| (byteAt block (4 * i + 3) <<< 24)

/-- The mixing function and the word of the block used at a step. -/
def mix (w : Words) (i : Nat) : UInt32 × Nat :=
  if i < 16 then ((w.b &&& w.c) ||| (~~~ w.b &&& w.d), i)
  else if i < 32 then ((w.d &&& w.b) ||| (~~~ w.d &&& w.c), (5 * i + 1) % 16)
  else if i < 48 then (w.b ^^^ w.c ^^^ w.d, (3 * i + 5) % 16)
  else (w.c ^^^ (w.b ||| ~~~ w.d), 7 * i % 16)

/-- One step on the block with the given words. -/
def step (block : Array UInt32) (w : Words) (k : UInt32 × Nat) : Words :=
  let (f, g) := mix w k.2
  let turn := turns.getD (4 * (k.2 / 16) + k.2 % 4) 0
  { a := w.d
    b := w.b + rotateLeft (w.a + f + k.1 + block.getD g 0) turn
    c := w.b
    d := w.c }

/-- Stirs a block into the chaining value. -/
def compress (w : Words) (block : Bytes) : Words :=
  let r := constants.zipIdx.foldl (step (words block)) w
  { a := w.a + r.a, b := w.b + r.b, c := w.c + r.c, d := w.d + r.d }

/-- The four words, the low byte of each first. -/
def output (w : Words) : List UInt8 :=
  [w.a, w.b, w.c, w.d].flatMap fun x => littleEndian 4 x.toNat

end Md5

/-- The MD5 message digest. -/
def md5 : BlockHash Md5.Words where
  start := ⟨0x67452301, 0xefcdab89, 0x98badcfe, 0x10325476⟩
  compress := Md5.compress
  lengthField bits := littleEndian 8 bits
  output := Md5.output

/-- An MD5 digest has sixteen bytes. -/
theorem length_md5_hash (input : Bytes) : (md5.hash input).length = 16 := by
  simp [BlockHash.hash, BlockHash.finish, md5, Md5.output]

end TransferBoard
