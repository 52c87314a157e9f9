import TransferBoard.Proofs.Digest.OfBytes

/-!
# A hash of whole blocks

The hash of an input can be told without a hash in progress: the input and its padding are
whole blocks of 64 bytes, which are stirred into the chaining value one after the other.
Taking in the input byte by byte, where what does not fill a block waits for more, comes to
the same.

## Main definitions

* `BlockHash.chained bytes n` — the chaining value after the first `n` blocks of some bytes.
* `BlockHash.ofWhole input` — the hash of an input, from its blocks and those of its padding.
* `DigestKind.ofWhole` — the same for a kind of digest.

## Main results

* `BlockHash.size_padded` — an input and its padding are whole blocks.
* `BlockHash.absorbAll_blocks` — whole blocks leave nothing that waits.
* `BlockHash.hash_eq_ofWhole` — **the hash that is taken byte by byte is that of the blocks.**
-/

namespace TransferBoard
namespace BlockHash

variable {σ : Type} (H : BlockHash σ)

/-- The chaining value after the first blocks of some bytes. -/
def chained (bytes : Bytes) (n : Nat) : σ :=
  (List.range n).foldl (fun chain i => H.compress chain (bytes.extract (64 * i) (64 * i + 64)))
    H.start

/-- The hash of an input, from its blocks and those of its padding. -/
def ofWhole (input : Bytes) : List UInt8 :=
  let padded := input ++ H.padding input.size
  H.output (H.chained padded (padded.size / 64))

theorem chained_succ (bytes : Bytes) (n : Nat) :
    H.chained bytes (n + 1) =
      H.compress (H.chained bytes n) (bytes.extract (64 * n) (64 * n + 64)) := by
  rw [chained, List.range_succ, List.foldl_append, List.foldl_cons, List.foldl_nil, chained]

/-! ### Taking in a block -/

theorem absorbAll_push (h : Hasher σ) (bytes : Bytes) (b : UInt8) :
    H.absorbAll h (bytes.push b) = H.absorb (H.absorbAll h bytes) b :=
  Array.foldl_push

/-- Bytes that do not fill the block wait for more. -/
theorem absorbAll_of_lt {h : Hasher σ} {bytes : Bytes} (hlt : h.pending.size + bytes.size < 64) :
    H.absorbAll h bytes =
      { chain := h.chain, pending := h.pending ++ bytes, size := h.size + bytes.size } := by
  -- bytes are taken in from the front, so the induction takes away the last one
  induction hn : bytes.size generalizing bytes with
  | zero =>
    obtain rfl := Array.eq_empty_of_size_eq_zero hn
    rw [Array.append_empty]
    rfl
  | succ n ih =>
    obtain ⟨bytes, b, rfl⟩ := Array.eq_push_of_size_ne_zero (by omega : bytes.size ≠ 0)
    rw [Array.size_push] at hlt hn
    rw [absorbAll_push, ih (by omega) (by omega), absorb, Array.append_push, if_neg]
    · rfl
    · rw [Array.size_push, Array.size_append]
      omega

/-- A block is stirred in when its last byte has come. -/
theorem absorbAll_block {h : Hasher σ} (hnone : h.pending = #[]) {block : Bytes}
    (hsize : block.size = 64) :
    H.absorbAll h block =
      { chain := H.compress h.chain block, pending := #[], size := h.size + 64 } := by
  obtain ⟨bytes, b, rfl⟩ := Array.eq_push_of_size_ne_zero (by omega : block.size ≠ 0)
  have hbytes : bytes.size = 63 := by
    rw [Array.size_push] at hsize
    omega
  rw [absorbAll_push, H.absorbAll_of_lt (by rw [hnone, hbytes]; decide), hnone, Array.empty_append,
    hbytes, absorb, if_pos hsize]

/-- Whole blocks leave nothing that waits. -/
theorem absorbAll_blocks (bytes : Bytes) (n : Nat) (hn : 64 * n ≤ bytes.size) :
    H.absorbAll H.init (bytes.extract 0 (64 * n)) =
      { chain := H.chained bytes n, pending := #[], size := 64 * n } := by
  induction n with
  | zero =>
    rw [Array.extract_empty_of_stop_le_start (Nat.le_refl 0)]
    rfl
  | succ n ih =>
    have hcut : bytes.extract 0 (64 * (n + 1)) =
        bytes.extract 0 (64 * n) ++ bytes.extract (64 * n) (64 * n + 64) := by
      rw [Array.extract_append_extract, Nat.zero_min, Nat.max_eq_right (Nat.le_add_right _ _)]
      rfl
    have hblock : (bytes.extract (64 * n) (64 * n + 64)).size = 64 := by
      rw [Array.size_extract]
      omega
    rw [hcut, absorbAll_append, ih (by omega), H.absorbAll_block rfl hblock, chained_succ]
    rfl

/-! ### The whole input -/

theorem size_absorb (h : Hasher σ) (b : UInt8) : (H.absorb h b).size = h.size + 1 := by
  rw [absorb]
  split
  · rfl
  · rfl

theorem size_absorbAll (h : Hasher σ) (bytes : Bytes) :
    (H.absorbAll h bytes).size = h.size + bytes.size := by
  induction hn : bytes.size generalizing bytes with
  | zero =>
    obtain rfl := Array.eq_empty_of_size_eq_zero hn
    rfl
  | succ n ih =>
    obtain ⟨bytes, b, rfl⟩ := Array.eq_push_of_size_ne_zero (by omega : bytes.size ≠ 0)
    rw [Array.size_push] at hn
    rw [absorbAll_push, size_absorb, ih bytes (by omega)]
    rfl

/-- An input and its padding are whole blocks, if the length field has its eight bytes. -/
theorem size_padded (input : Bytes) (hfield : (H.lengthField (8 * input.size)).length = 8) :
    64 * ((input ++ H.padding input.size).size / 64) = (input ++ H.padding input.size).size := by
  have hpadding : (H.padding input.size).size = (119 - input.size % 64) % 64 + 9 := by
    rw [padding, List.size_toArray, List.length_append, List.length_cons, List.length_replicate,
      hfield]
  -- the padding is one byte, the zeros up to the last eight bytes of a block, and those
  rw [Array.size_append, hpadding]
  omega

/-- **The hash that is taken byte by byte is that of the blocks.** -/
theorem hash_eq_ofWhole (input : Bytes)
    (hfield : (H.lengthField (8 * input.size)).length = 8) : H.hash input = H.ofWhole input := by
  have hblocks := H.absorbAll_blocks (input ++ H.padding input.size)
    ((input ++ H.padding input.size).size / 64) (Nat.le_of_eq (H.size_padded input hfield))
  rw [H.size_padded input hfield, Array.extract_size, absorbAll_append] at hblocks
  have hsize : (H.absorbAll H.init input).size = input.size := by
    rw [size_absorbAll]
    exact Nat.zero_add _
  rw [hash, finish, hsize, hblocks, ofWhole]

end BlockHash

/-- The raw digest of some bytes, from the blocks of these and their padding. -/
def DigestKind.ofWhole : DigestKind → Bytes → List UInt8
  | md5, bytes => TransferBoard.md5.ofWhole bytes
  | sha256, bytes => TransferBoard.sha256.ofWhole bytes

theorem DigestKind.ofBytes_eq_ofWhole (kind : DigestKind) (bytes : Bytes) :
    kind.ofBytes bytes = kind.ofWhole bytes := by
  cases kind with
  | md5 => exact TransferBoard.md5.hash_eq_ofWhole bytes (length_littleEndian 8 _)
  | sha256 => exact TransferBoard.sha256.hash_eq_ofWhole bytes (length_bigEndian 8 _)

end TransferBoard
