import TransferBoard.Digest.Block

/-!
# The SHA-256 message digest

A block of sixteen words is stretched to sixty-four, and as many steps stir them
into eight words.

## Main definitions

* `sha256` — the block hash; `sha256.hash` gives thirty-two bytes.
-/

namespace TransferBoard

namespace Sha256

/-- The chaining value: eight words. -/
structure Words where
  a : UInt32
  b : UInt32
  c : UInt32
  d : UInt32
  e : UInt32
  f : UInt32
  g : UInt32
  h : UInt32

/-- The fractional parts of the cube roots of the first 64 primes. -/
def constants : List UInt32 :=
  [0x428a2f98, 0x71374491, 0xb5c0fbcf, 0xe9b5dba5, 0x3956c25b, 0x59f111f1,
   0x923f82a4, 0xab1c5ed5, 0xd807aa98, 0x12835b01, 0x243185be, 0x550c7dc3,
   0x72be5d74, 0x80deb1fe, 0x9bdc06a7, 0xc19bf174, 0xe49b69c1, 0xefbe4786,
   0x0fc19dc6, 0x240ca1cc, 0x2de92c6f, 0x4a7484aa, 0x5cb0a9dc, 0x76f988da,
   0x983e5152, 0xa831c66d, 0xb00327c8, 0xbf597fc7, 0xc6e00bf3, 0xd5a79147,
   0x06ca6351, 0x14292967, 0x27b70a85, 0x2e1b2138, 0x4d2c6dfc, 0x53380d13,
   0x650a7354, 0x766a0abb, 0x81c2c92e, 0x92722c85, 0xa2bfe8a1, 0xa81a664b,
   0xc24b8b70, 0xc76c51a3, 0xd192e819, 0xd6990624, 0xf40e3585, 0x106aa070,
   0x19a4c116, 0x1e376c08, 0x2748774c, 0x34b0bcb5, 0x391c0cb3, 0x4ed8aa4a,
   0x5b9cca4f, 0x682e6ff3, 0x748f82ee, 0x78a5636f, 0x84c87814, 0x8cc70208,
   0x90befffa, 0xa4506ceb, 0xbef9a3f7, 0xc67178f2]

/-- The sixteen words of a block, the high byte of each first. -/
def words (block : Bytes) : Array UInt32 :=
  Array.ofFn fun i : Fin 16 =>
    (byteAt block (4 * i) <<< 24) ||| (byteAt block (4 * i + 1) <<< 16)
      ||| (byteAt block (4 * i + 2) <<< 8) ||| byteAt block (4 * i + 3)

/-- The word that follows the words of a schedule. -/
def nextWord (w : Array UInt32) : UInt32 :=
  let ago (n : Nat) : UInt32 := w.getD (w.size - n) 0
  let x := ago 15
  let y := ago 2
  ago 16 + (rotateRight x 7 ^^^ rotateRight x 18 ^^^ (x >>> 3)) + ago 7
    + (rotateRight y 17 ^^^ rotateRight y 19 ^^^ (y >>> 10))

/-- The sixty-four words that a block is stretched to. -/
def schedule (block : Bytes) : Array UInt32 :=
  (List.range 48).foldl (fun w _ => w.push (nextWord w)) (words block)

/-- One step with a constant and a word of the schedule. -/
def step (s : Words) (kw : UInt32 × UInt32) : Words :=
  let s1 := rotateRight s.e 6 ^^^ rotateRight s.e 11 ^^^ rotateRight s.e 25
  let choice := (s.e &&& s.f) ^^^ (~~~ s.e &&& s.g)
  let t1 := s.h + s1 + choice + kw.1 + kw.2
  let s0 := rotateRight s.a 2 ^^^ rotateRight s.a 13 ^^^ rotateRight s.a 22
  let majority := (s.a &&& s.b) ^^^ (s.a &&& s.c) ^^^ (s.b &&& s.c)
  { a := t1 + (s0 + majority), b := s.a, c := s.b, d := s.c
    e := s.d + t1, f := s.e, g := s.f, h := s.g }

/-- Stirs a block into the chaining value. -/
def compress (s : Words) (block : Bytes) : Words :=
  let r := (constants.zip (schedule block).toList).foldl step s
  { a := s.a + r.a, b := s.b + r.b, c := s.c + r.c, d := s.d + r.d
    e := s.e + r.e, f := s.f + r.f, g := s.g + r.g, h := s.h + r.h }

/-- The eight words, the high byte of each first. -/
def output (s : Words) : List UInt8 :=
  [s.a, s.b, s.c, s.d, s.e, s.f, s.g, s.h].flatMap fun x => bigEndian 4 x.toNat

end Sha256

/-- The SHA-256 message digest. -/
def sha256 : BlockHash Sha256.Words where
  start :=
    ⟨0x6a09e667, 0xbb67ae85, 0x3c6ef372, 0xa54ff53a,
   0x510e527f, 0x9b05688c, 0x1f83d9ab, 0x5be0cd19⟩
  compress := Sha256.compress
  lengthField bits := bigEndian 8 bits
  output := Sha256.output

/-- A SHA-256 digest has thirty-two bytes. -/
theorem length_sha256_hash (input : Bytes) : (sha256.hash input).length = 32 := by
  simp [BlockHash.hash, BlockHash.finish, sha256, Sha256.output]

end TransferBoard
