import TransferBoard.Digest.Hex

/-!
# Hashing in blocks

Both digests cut their input into blocks of 64 bytes and stir one block after the
other into a chaining value. The input arrives in pieces of any size: what does
not fill a block waits for the next piece.

## Main definitions

* `BlockHash σ` — a compression function with its first chaining value, the order
  of the length field, and the way to read a digest off the last chaining value.
* `BlockHash.absorb`, `BlockHash.absorbAll` — take in one byte, or a piece.
* `BlockHash.finish` — pad the input and read off the digest.
* `BlockHash.hash` — the digest of a whole input.

## Main results

* `absorbAll_append` — two pieces have the effect of their concatenation.
-/

namespace TransferBoard

/-- A hash function that works through blocks of 64 bytes. -/
structure BlockHash (σ : Type) where
  /-- The chaining value before the first block. -/
  start : σ
  /-- Stirs a block of 64 bytes into the chaining value. -/
  compress : σ → Bytes → σ
  /-- The eight bytes that tell the length of the input in bits. -/
  lengthField : Nat → List UInt8
  /-- The digest that a chaining value stands for. -/
  output : σ → List UInt8

/-- A hash in progress. -/
structure Hasher (σ : Type) where
  /-- The chaining value after the complete blocks. -/
  chain : σ
  /-- The bytes since the last complete block. -/
  pending : Bytes := #[]
  /-- The number of bytes taken in. -/
  size : Nat := 0

namespace BlockHash

variable {σ : Type} (H : BlockHash σ)

/-- The hash before any input. -/
def init : Hasher σ := { chain := H.start }

/-- Takes in one byte. -/
def absorb (h : Hasher σ) (b : UInt8) : Hasher σ :=
  let pending := h.pending.push b
  if pending.size = 64 then
    { chain := H.compress h.chain pending, pending := #[], size := h.size + 1 }
  else
    { chain := h.chain, pending := pending, size := h.size + 1 }

/-- Takes in a piece of the input. -/
def absorbAll (h : Hasher σ) (piece : Bytes) : Hasher σ :=
  piece.foldl H.absorb h

/-- Two pieces have the effect of their concatenation. -/
theorem absorbAll_append (h : Hasher σ) (a b : Bytes) :
    H.absorbAll h (a ++ b) = H.absorbAll (H.absorbAll h a) b := by
  simp [absorbAll]

/-- The bytes that follow an input of the given size: a one bit, zeros up to eight
bytes before the end of a block, and the length. -/
def padding (size : Nat) : Bytes :=
  ((0x80 :: List.replicate ((119 - size % 64) % 64) 0) ++ H.lengthField (8 * size)).toArray

/-- Pads the input and reads off the digest. -/
def finish (h : Hasher σ) : List UInt8 :=
  H.output (H.absorbAll h (H.padding h.size)).chain

/-- The digest of a whole input. -/
def hash (input : Bytes) : List UInt8 := H.finish (H.absorbAll H.init input)

end BlockHash

/-- The bytes of a number, the lowest first, cut after `count` bytes. -/
def littleEndian : Nat → Nat → List UInt8
  | 0, _ => []
  | count + 1, n => n.toUInt8 :: littleEndian count (n / 256)

/-- The bytes of a number, the highest first, cut to the lowest `count` bytes. -/
def bigEndian (count n : Nat) : List UInt8 := (littleEndian count n).reverse

@[simp] theorem length_littleEndian (count n : Nat) : (littleEndian count n).length = count := by
  induction count generalizing n with
  | zero => rfl
  | succ count ih => simp [littleEndian, ih]

@[simp] theorem length_bigEndian (count n : Nat) : (bigEndian count n).length = count := by
  simp [bigEndian]

/-- Turns a 32-bit word left by `k` places. -/
def rotateLeft (x : UInt32) (k : UInt32) : UInt32 := (x <<< k) ||| (x >>> (32 - k))

/-- Turns a 32-bit word right by `k` places. -/
def rotateRight (x : UInt32) (k : UInt32) : UInt32 := (x >>> k) ||| (x <<< (32 - k))

/-- The byte at a place, as a word. -/
def byteAt (bytes : Bytes) (i : Nat) : UInt32 := (bytes.getD i 0).toUInt32

end TransferBoard
