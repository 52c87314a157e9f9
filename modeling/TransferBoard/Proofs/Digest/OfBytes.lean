import TransferBoard.Digest.OfFile
import TransferBoard.Proofs.Disk.Resolve

/-!
# The digest of a file

A file is hashed in the pieces that its reads deliver, and that gives the digest of its bytes:
wherever the file is, and wherever the pieces are cut.

## Main definitions

* `DigestKind.ofBytes kind bytes` — the raw digest of some bytes.

## Main results

* `absorbReads_piecesFrom` — the pieces of a file have the effect of its bytes.
* `digest_of_file` — **a file has a digest, and it is that of its bytes.**
-/

namespace TransferBoard

/-- A piece from an offset on and the rest after it, which may be nothing. -/
theorem extract_append_rest (bytes : Bytes) (k n : Nat) :
    bytes.extract k (k + n) ++ bytes.extract (k + n) bytes.size =
      bytes.extract k bytes.size := by
  rw [Array.extract_append_extract, Nat.min_eq_left (Nat.le_add_right k n),
    Array.extract_eq_extract_right]
  omega

namespace BlockHash

variable {σ : Type} (H : BlockHash σ)

/-- The pieces of a file from an offset on have the effect of its bytes from there. -/
theorem absorbReads_piecesFrom (contents : Bytes) (offset : Nat) (h : Hasher σ) :
    H.absorbReads h (piecesFrom contents offset) =
      .ok (H.absorbAll h (contents.extract offset contents.size)) := by
  induction offset using piecesFrom.induct contents generalizing h with
  | case1 offset hlt ih =>
    rw [piecesFrom, if_pos hlt, absorbReads, ih, ← absorbAll_append, extract_append_rest]
  | case2 offset hge =>
    rw [piecesFrom, if_neg hge, absorbReads,
      Array.extract_empty_of_stop_le_start (Nat.le_of_not_lt hge)]
    rfl

theorem hexOfReads_pieces (contents : Bytes) :
    H.hexOfReads (piecesFrom contents 0) = .ok (hexText (H.hash contents)) := by
  rw [hexOfReads, absorbReads_piecesFrom, Array.extract_size]
  rfl

end BlockHash

/-- The raw digest of some bytes. -/
def DigestKind.ofBytes : DigestKind → Bytes → List UInt8
  | md5, bytes => TransferBoard.md5.hash bytes
  | sha256, bytes => TransferBoard.sha256.hash bytes

/-- The text of a digest has the length by which its kind is told. -/
theorem DigestKind.length_ofBytes (kind : DigestKind) (bytes : Bytes) :
    (hexText (kind.ofBytes bytes)).length = kind.hexLength := by
  rw [length_hexText]
  cases kind with
  | md5 => rw [ofBytes, length_md5_hash]; rfl
  | sha256 => rw [ofBytes, length_sha256_hash]; rfl

/-- **A file has a digest, and it is that of its bytes.** -/
theorem Disk.digest_of_file {d : Disk} {path : Path} {bytes : Bytes}
    (h : d.at? path = some (.file bytes)) (kind : DigestKind) :
    d.digest kind path = .ok (hexText (kind.ofBytes bytes)) := by
  obtain ⟨place, hplace⟩ := at?_eq_some_iff.mp h
  have hopen : d.openRead path = .ok (place, .file bytes) := locate_eq_ok_iff.mpr hplace
  have hreads : digestOfReads kind (Node.file bytes).reads =
      .ok (hexText (kind.ofBytes bytes)) := by
    cases kind with
    | md5 => exact md5.hexOfReads_pieces bytes
    | sha256 => exact sha256.hexOfReads_pieces bytes
  simp only [digest, hopen, hreads]

end TransferBoard
