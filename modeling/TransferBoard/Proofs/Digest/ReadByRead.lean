import TransferBoard.Proofs.Digest.Blocks
import TransferBoard.Proofs.Digest.Retyped

/-!
# A file hashed read by read

A file is read into one buffer, over and over.  A read may fail, and it may deliver fewer bytes
than there is room for; what the buffer held before then stays in its tail.  Only a read that
delivers nothing tells the end of the file.

## Main definitions

* `ReadBuffer` — the buffer, with `fill` for what a read does to it.
* `ReadTurn` — whether a read fails, and how much it delivers.
* `OpenFile` — a file, and how each read of it goes.
* `OpenFile.offsetAt`, `OpenFile.Makes` — where a read starts, and whether it is made at all.
* `OpenFile.absorbFrom` — the loop that hashes what each read leaves in the buffer.
* `OpenFile.readsFrom` — what the reads deliver.
* `digestOpened` — the digest of a file, if it could be opened.

## Main results

* `OpenFile.absorbFrom_eq` — the tail of the buffer is never hashed.
* `OpenFile.absorbReads_failing`, `OpenFile.absorbReads_whole` — what the reads deliver is the
  file, or ends with the first failure.
* `Disk.digest_eq` — the digest of a file on the disk is one of these.
* `digest_read_by_read` — **there is a digest just when no read fails, and it is that of the
  whole file, wherever the reads cut it.**
-/

namespace TransferBoard

/-! ### The buffer -/

/-- The buffer that the reads fill. -/
structure ReadBuffer where
  /-- The bytes, old and new. -/
  bytes : Bytes
  size_eq : bytes.size = digestReadSize

namespace ReadBuffer

/-- The buffer before the first read. -/
def zeros : ReadBuffer := ⟨Array.replicate digestReadSize 0, Array.size_replicate⟩

/-- A read puts what it delivers to the front. What lies behind stays. -/
def fill (buffer : ReadBuffer) (piece : Bytes) (hfits : piece.size ≤ digestReadSize) :
    ReadBuffer where
  bytes := piece ++ buffer.bytes.extract piece.size digestReadSize
  size_eq := by
    rw [Array.size_append, Array.size_extract, buffer.size_eq, Nat.min_self]
    omega

/-- The first bytes of the buffer. -/
def front (buffer : ReadBuffer) (count : Nat) : Bytes := buffer.bytes.extract 0 count

/-- The front of the buffer is what the last read delivered. -/
theorem front_fill (buffer : ReadBuffer) {piece : Bytes} (hfits : piece.size ≤ digestReadSize) :
    (buffer.fill piece hfits).front piece.size = piece := by
  rw [front, fill, Array.extract_append_left, Array.extract_size]

end ReadBuffer

/-! ### The reads -/

/-- How a read goes. -/
structure ReadTurn where
  /-- Why the read fails. -/
  fault : Option OsError := none
  /-- The most bytes that it delivers. -/
  limit : Nat := digestReadSize

/-- The number of bytes that a read delivers of those that are left: one at least, if there is
one, and no more than there is room for. -/
def ReadTurn.count (turn : ReadTurn) (left : Nat) : Nat :=
  min (max turn.limit 1) (min digestReadSize left)

namespace ReadTurn

variable (turn : ReadTurn) {left : Nat}

theorem count_le_left : turn.count left ≤ left :=
  Nat.le_trans (Nat.min_le_right _ _) (Nat.min_le_right _ _)

theorem count_le_digestReadSize : turn.count left ≤ digestReadSize :=
  Nat.le_trans (Nat.min_le_right _ _) (Nat.min_le_left _ _)

/-- Only at the end of the file does a read deliver nothing. -/
theorem count_eq_zero_iff : turn.count left = 0 ↔ left = 0 := by
  unfold count digestReadSize
  omega

/-- A read may deliver any number of bytes. -/
theorem exists_count_eq {n : Nat} (hpos : 0 < n) (hroom : n ≤ digestReadSize) (hleft : n ≤ left) :
    ∃ turn : ReadTurn, turn.fault = none ∧ turn.count left = n :=
  ⟨{ limit := n }, rfl, by simp only [count]; omega⟩

end ReadTurn

/-- A file that was opened. -/
structure OpenFile where
  /-- What there is to read. -/
  contents : Bytes
  /-- How each read goes. -/
  turns : Nat → ReadTurn

namespace OpenFile

variable (file : OpenFile)

/-- The number of bytes that a read delivers. -/
def count (i offset : Nat) : Nat := (file.turns i).count (file.contents.size - offset)

/-- The bytes that were delivered before a read. -/
def offsetAt : Nat → Nat
  | 0 => 0
  | i + 1 => offsetAt i + file.count i (offsetAt i)

/-- A read is made: all reads before it delivered something. -/
def Makes (i : Nat) : Prop :=
  ∀ j < i, (file.turns j).fault = none ∧ file.offsetAt j < file.contents.size

instance (i : Nat) : Decidable (file.Makes i) :=
  inferInstanceAs (Decidable (∀ j < i, _ ∧ _))

/-- A read is made, and fails. -/
def FailsAt (i : Nat) (e : OsError) : Prop := file.Makes i ∧ (file.turns i).fault = some e

/-- What a read delivers. -/
def piece (i offset : Nat) : Bytes :=
  file.contents.extract offset (offset + file.count i offset)

theorem size_piece (i offset : Nat) : (file.piece i offset).size = file.count i offset := by
  have hle : file.count i offset ≤ file.contents.size - offset := ReadTurn.count_le_left _
  rw [piece, Array.size_extract]
  omega

theorem size_piece_le (i offset : Nat) : (file.piece i offset).size ≤ digestReadSize := by
  rw [size_piece]
  exact ReadTurn.count_le_digestReadSize _

theorem lt_size_of_count_ne_zero {i offset : Nat} (h : file.count i offset ≠ 0) :
    offset < file.contents.size := by
  rw [count, Ne, ReadTurn.count_eq_zero_iff] at h
  omega

/-- What the reads deliver, from a read at an offset on. -/
def readsFrom (i offset : Nat) : List (Except OsError Bytes) :=
  match (file.turns i).fault with
  | some e => [.error e]
  | none =>
    if file.count i offset = 0 then []
    else .ok (file.piece i offset) :: readsFrom (i + 1) (offset + file.count i offset)
termination_by file.contents.size - offset
decreasing_by
  have := file.lt_size_of_count_ne_zero ‹_›
  omega

/-- Reads into the buffer and hashes what was delivered, until a read delivers nothing. -/
def absorbFrom {σ : Type} (H : BlockHash σ) (i offset : Nat) (buffer : ReadBuffer)
    (h : Hasher σ) : Except OsError (Hasher σ) :=
  match (file.turns i).fault with
  | some e => .error e
  | none =>
    let count := file.count i offset
    if count = 0 then .ok h
    else
      let buffer := buffer.fill (file.piece i offset) (file.size_piece_le i offset)
      absorbFrom H (i + 1) (offset + count) buffer (H.absorbAll h (buffer.front count))
termination_by file.contents.size - offset
decreasing_by
  have := file.lt_size_of_count_ne_zero ‹_›
  omega

/-- The tail of the buffer is never hashed. -/
theorem absorbFrom_eq {σ : Type} (H : BlockHash σ) (i offset : Nat) (buffer : ReadBuffer)
    (h : Hasher σ) :
    file.absorbFrom H i offset buffer h = H.absorbReads h (file.readsFrom i offset) := by
  induction i, offset using readsFrom.induct file generalizing buffer h with
  | case1 i offset e hfault => rw [absorbFrom, readsFrom, hfault, BlockHash.absorbReads]
  | case2 i offset hfault hend =>
    rw [absorbFrom, readsFrom, hfault]
    simp only [hend, if_pos, BlockHash.absorbReads]
  | case3 i offset hfault hmore ih =>
    rw [absorbFrom, readsFrom, hfault]
    simp only [if_neg hmore, BlockHash.absorbReads]
    rw [ih, ← file.size_piece i offset, ReadBuffer.front_fill]

/-! ### What the reads deliver -/

variable {file}

theorem Makes.succ {i : Nat} (hmade : file.Makes i) (hfault : (file.turns i).fault = none)
    (hmore : file.offsetAt i < file.contents.size) : file.Makes (i + 1) := by
  intro j hj
  rcases Nat.lt_succ_iff_lt_or_eq.mp hj with hj | rfl
  · exact hmade j hj
  · exact ⟨hfault, hmore⟩

/-- A read that is made and fails ends the digest, whatever the reads before it delivered. -/
theorem absorbReads_failing {σ : Type} (H : BlockHash σ) {k : Nat} {e : OsError}
    (hfails : file.FailsAt k e) (i offset : Nat) (hi : i ≤ k) (hoffset : file.offsetAt i = offset)
    (h : Hasher σ) : H.absorbReads h (file.readsFrom i offset) = .error e := by
  obtain ⟨hmade, hat⟩ := hfails
  induction i, offset using readsFrom.induct file generalizing h with
  | case1 i offset e' hfault =>
    rcases Nat.lt_or_eq_of_le hi with hlt | rfl
    · rw [(hmade i hlt).1] at hfault
      cases hfault
    · rw [hat] at hfault
      cases hfault
      rw [readsFrom, hat, BlockHash.absorbReads]
  | case2 i offset hfault hend =>
    -- the file does not end before a read that is made
    rcases Nat.lt_or_eq_of_le hi with hlt | rfl
    · have hmore := (hmade i hlt).2
      rw [count, ReadTurn.count_eq_zero_iff] at hend
      omega
    · rw [hat] at hfault
      cases hfault
  | case3 i offset hfault hmore ih =>
    have hlt : i < k := by
      refine Nat.lt_of_le_of_ne hi ?_
      rintro rfl
      rw [hat] at hfault
      cases hfault
    rw [readsFrom, hfault]
    simp only [if_neg hmore, BlockHash.absorbReads]
    exact ih hlt (by rw [offsetAt, hoffset]) _

/-- Reads that do not fail deliver the file, wherever they cut it. -/
theorem absorbReads_whole {σ : Type} (H : BlockHash σ) (hnone : ∀ k e, ¬ file.FailsAt k e)
    (i offset : Nat) (hmade : file.Makes i) (hoffset : file.offsetAt i = offset) (h : Hasher σ) :
    H.absorbReads h (file.readsFrom i offset) =
      .ok (H.absorbAll h (file.contents.extract offset file.contents.size)) := by
  induction i, offset using readsFrom.induct file generalizing h with
  | case1 i offset e hfault => exact absurd ⟨hmade, hfault⟩ (hnone i e)
  | case2 i offset hfault hend =>
    rw [count, ReadTurn.count_eq_zero_iff] at hend
    rw [readsFrom, hfault, Array.extract_empty_of_stop_le_start (by omega)]
    simp only [count, ReadTurn.count_eq_zero_iff, hend, if_pos, BlockHash.absorbReads]
    rfl
  | case3 i offset hfault hmore ih =>
    have hlt := file.lt_size_of_count_ne_zero hmore
    rw [readsFrom, hfault]
    simp only [if_neg hmore, BlockHash.absorbReads]
    rw [ih (hmade.succ hfault (hoffset ▸ hlt)) (by rw [offsetAt, hoffset]),
      ← BlockHash.absorbAll_append, piece, extract_append_rest]

/-! ### The digest -/

variable (file)

/-- The digest that the loop ends with. -/
def hexOf {σ : Type} (H : BlockHash σ) : Except OsError String :=
  (file.absorbFrom H 0 0 .zeros H.init).map fun h => hexText (H.finish h)

/-- The digest of a kind that the loop ends with. -/
def digest : DigestKind → Except OsError String
  | .md5 => file.hexOf md5
  | .sha256 => file.hexOf sha256

theorem hexOf_eq {σ : Type} (H : BlockHash σ) :
    file.hexOf H = H.hexOfReads (file.readsFrom 0 0) := by
  rw [hexOf, absorbFrom_eq, BlockHash.hexOfReads]

theorem digest_eq (kind : DigestKind) :
    file.digest kind = digestOfReads kind (file.readsFrom 0 0) := by
  cases kind with
  | md5 => exact file.hexOf_eq md5
  | sha256 => exact file.hexOf_eq sha256

theorem makes_zero : file.Makes 0 := fun j hj => absurd hj (Nat.not_lt_zero j)

variable {file}

theorem digest_failing {i : Nat} {e : OsError} (hfails : file.FailsAt i e) (kind : DigestKind) :
    file.digest kind = .error e := by
  have hreads {σ : Type} (H : BlockHash σ) : H.hexOfReads (file.readsFrom 0 0) = .error e := by
    rw [BlockHash.hexOfReads, absorbReads_failing H hfails 0 0 (Nat.zero_le i) rfl]
    rfl
  rw [digest_eq]
  cases kind with
  | md5 => exact hreads md5
  | sha256 => exact hreads sha256

theorem digest_whole (hnone : ∀ i e, ¬ file.FailsAt i e) (kind : DigestKind) :
    file.digest kind = .ok (hexText (kind.ofWhole file.contents)) := by
  have hreads {σ : Type} (H : BlockHash σ) :
      H.hexOfReads (file.readsFrom 0 0) = .ok (hexText (H.hash file.contents)) := by
    rw [BlockHash.hexOfReads, absorbReads_whole H hnone 0 0 file.makes_zero rfl,
      Array.extract_size]
    rfl
  rw [digest_eq, ← kind.ofBytes_eq_ofWhole]
  cases kind with
  | md5 => exact hreads md5
  | sha256 => exact hreads sha256

/-- The digest fails as the first read that does. -/
theorem digest_eq_error_iff {kind : DigestKind} {e : OsError} :
    file.digest kind = .error e ↔ ∃ i, file.FailsAt i e := by
  constructor
  · intro h
    by_cases hfails : ∃ i e', file.FailsAt i e'
    · obtain ⟨i, e', hfails⟩ := hfails
      rw [digest_failing hfails] at h
      cases h
      exact ⟨i, hfails⟩
    · rw [digest_whole (fun i e' h => hfails ⟨i, e', h⟩)] at h
      cases h
  · rintro ⟨i, hfails⟩
    exact digest_failing hfails kind

theorem digest_eq_ok_iff {kind : DigestKind} {text : String} :
    file.digest kind = .ok text ↔
      (∀ i e, ¬ file.FailsAt i e) ∧ text = hexText (kind.ofWhole file.contents) := by
  constructor
  · intro h
    have hnone : ∀ i e, ¬ file.FailsAt i e := by
      intro i e hfails
      rw [digest_failing hfails] at h
      cases h
    rw [digest_whole hnone] at h
    cases h
    exact ⟨hnone, rfl⟩
  · rintro ⟨hnone, rfl⟩
    exact digest_whole hnone kind

end OpenFile

/-- The digest of a file, if it could be opened. -/
def digestOpened (kind : DigestKind) (path : Path) :
    Except OsError OpenFile → Except DigestError String
  | .error e => .error (.open path e)
  | .ok file => (file.digest kind).mapError (.read path)

section

variable {kind : DigestKind} {path : Path} {opened : Except OsError OpenFile}

/-- There is a digest just when the file is open and no read fails. -/
theorem digestOpened_eq_ok_iff {text : String} :
    digestOpened kind path opened = .ok text ↔
      ∃ file, opened = .ok file ∧ (∀ i e, ¬ file.FailsAt i e) ∧
        text = hexText (kind.ofWhole file.contents) := by
  cases opened with
  | error e => simp [digestOpened]
  | ok file =>
    simp only [Except.ok.injEq, exists_eq_left', ← OpenFile.digest_eq_ok_iff, digestOpened]
    cases file.digest kind <;> simp [Except.mapError]

/-- Otherwise it is told what failed: the opening, or a read. -/
theorem digestOpened_eq_error_iff {failure : DigestError} :
    digestOpened kind path opened = .error failure ↔
      (∃ e, opened = .error e ∧ failure = .open path e) ∨
        ∃ file i e, opened = .ok file ∧ file.FailsAt i e ∧ failure = .read path e := by
  cases opened with
  | error e => simp [digestOpened, eq_comm]
  | ok file =>
    have hread : digestOpened kind path (.ok file) = .error failure ↔
        ∃ e, file.digest kind = .error e ∧ failure = .read path e := by
      rw [digestOpened]
      cases file.digest kind <;> simp [Except.mapError, eq_comm]
    rw [hread]
    constructor
    · rintro ⟨e, hdigest, hfailure⟩
      obtain ⟨i, hfails⟩ := OpenFile.digest_eq_error_iff.mp hdigest
      exact .inr ⟨file, i, e, rfl, hfails, hfailure⟩
    · rintro (⟨e, hopened, -⟩ | ⟨_, i, e, hopened, hfails, hfailure⟩)
      · cases hopened
      · cases hopened
        exact ⟨e, OpenFile.digest_failing hfails kind, hfailure⟩

end

/-! ### Files on the disk -/

/-- A node of the disk as it is read: a directory can be opened, but not read. -/
def Node.opened : Node → OpenFile
  | .dir => { contents := #[], turns := fun _ => { fault := some .isDirectory } }
  | .file contents => { contents := contents, turns := fun _ => {} }
  | .stream arrived => { contents := arrived.getD #[], turns := fun _ => {} }

/-- At the end of the file nothing more is delivered. -/
theorem OpenFile.readsFrom_end {file : OpenFile} {i offset : Nat}
    (hfault : (file.turns i).fault = none) (hend : file.contents.size ≤ offset) :
    file.readsFrom i offset = [] := by
  have hcount : file.count i offset = 0 := ReadTurn.count_eq_zero_iff _ |>.mpr (by omega)
  rw [readsFrom, hfault]
  exact if_pos hcount

/-- Reads that fill the buffer cut a file into pieces of its size. -/
theorem OpenFile.readsFrom_full (contents : Bytes) (i offset : Nat) :
    (OpenFile.mk contents fun _ => {}).readsFrom i offset = piecesFrom contents offset := by
  induction offset using piecesFrom.induct contents generalizing i with
  | case1 offset hlt ih =>
    have hcount : (OpenFile.mk contents fun _ => {}).count i offset =
        min digestReadSize (contents.size - offset) := by
      simp only [count, ReadTurn.count, digestReadSize]
      omega
    have hsome : min digestReadSize (contents.size - offset) ≠ 0 := by
      unfold digestReadSize
      omega
    have hpiece : contents.extract offset (offset + min digestReadSize (contents.size - offset)) =
        contents.extract offset (offset + digestReadSize) := by
      rw [Array.extract_eq_extract_right]
      omega
    rw [readsFrom, piecesFrom, if_pos hlt]
    simp only [piece, hcount, if_neg hsome, hpiece]
    congr 1
    -- only the last piece may be shorter than the buffer, and nothing comes after it
    rcases Nat.le_total digestReadSize (contents.size - offset) with hfull | hlast
    · rw [Nat.min_eq_left hfull, ih]
    · rw [readsFrom_end rfl (by simp only; omega), piecesFrom, if_neg (by omega)]
  | case2 offset hge => rw [readsFrom_end rfl (Nat.le_of_not_lt hge), piecesFrom, if_neg hge]

theorem Node.reads_eq (node : Node) : node.reads = node.opened.readsFrom 0 0 := by
  cases node with
  | dir => rw [reads, opened, OpenFile.readsFrom]
  | file contents => exact (OpenFile.readsFrom_full contents 0 0).symm
  | stream arrived => exact (OpenFile.readsFrom_full (arrived.getD #[]) 0 0).symm

/-- The digest of a file on the disk is that of its node, read by read. -/
theorem Disk.digest_eq (d : Disk) (kind : DigestKind) (path : Path) :
    d.digest kind path =
      digestOpened kind path ((d.openRead path).map fun found => found.2.opened) := by
  rw [digest]
  cases d.openRead path with
  | error e => rfl
  | ok found =>
    simp only [Except.map, digestOpened, OpenFile.digest_eq, ← Node.reads_eq]
    cases digestOfReads kind found.2.reads <;> rfl

/-! ### The text of a digest -/

/-- A digest is written in lower-case hexadecimal digits. -/
theorem mem_hexDigits {bytes : List UInt8} {c : Char} (h : c ∈ (hexText bytes).toList) :
    c ∈ "0123456789abcdef".toList := by
  have hdigits : ∀ n < 16, hexDigit n ∈ "0123456789abcdef".toList := by decide
  obtain ⟨n, hn, rfl⟩ := exists_hexDigit h
  exact hdigits n hn

theorem DigestKind.length_ofWhole (kind : DigestKind) (bytes : Bytes) :
    (hexText (kind.ofWhole bytes)).length = kind.hexLength := by
  rw [← kind.ofBytes_eq_ofWhole, kind.length_ofBytes]

/-- **There is a digest just when the file could be opened and no read of it fails, and it is that
of the whole file, wherever the reads cut it; otherwise the failure is told, with the path.**  The
text of a digest has the length by which its kind is told, and lower-case hexadecimal digits only.
The digest of a file on the disk is an instance. -/
theorem digest_read_by_read (kind : DigestKind) (path : Path) :
    (∀ opened text, digestOpened kind path opened = .ok text ↔
      ∃ file, opened = .ok file ∧ (∀ i e, ¬ file.FailsAt i e) ∧
        text = hexText (kind.ofWhole file.contents)) ∧
    (∀ opened failure, digestOpened kind path opened = .error failure ↔
      (∃ e, opened = .error e ∧ failure = .open path e) ∨
        ∃ file i e, opened = .ok file ∧ file.FailsAt i e ∧ failure = .read path e) ∧
    (∀ opened text, digestOpened kind path opened = .ok text →
      text.length = kind.hexLength ∧ (∀ c ∈ text.toList, c ∈ "0123456789abcdef".toList) ∧
        DigestKind.ofHexLength? text.length = some kind) ∧
    ∀ d : Disk, d.digest kind path =
      digestOpened kind path ((d.openRead path).map fun found => found.2.opened) := by
  refine ⟨fun _ _ => digestOpened_eq_ok_iff, fun _ _ => digestOpened_eq_error_iff, ?_,
    fun d => d.digest_eq kind path⟩
  intro opened text h
  obtain ⟨file, -, -, rfl⟩ := digestOpened_eq_ok_iff.mp h
  have hlength := kind.length_ofWhole file.contents
  refine ⟨hlength, fun c hc => mem_hexDigits hc, ?_⟩
  rw [hlength, DigestKind.ofHexLength?_hexLength]

/-- Seven bytes, of which no read delivers more than three.  The digest is that of the seven; but
if the fourth read fails, which is to find the end of the file, there is none. -/
theorem digest_of_seven_bytes :
    let path : Path := ⟨"payload.bin"⟩
    let contents : Bytes := #[0x70, 0x61, 0x79, 0x6c, 0x6f, 0x61, 0x64]
    let short : OpenFile := ⟨contents, fun _ => { limit := 3 }⟩
    let failing : OpenFile :=
      ⟨contents, fun i => { limit := 3, fault := if i = 3 then some (.other "EIO") else none }⟩
    digestOpened .sha256 path (.ok short) = .ok (hexText (DigestKind.sha256.ofWhole contents)) ∧
      digestOpened .sha256 path (.ok failing) = .error (.read path (.other "EIO")) := by
  intro path contents short failing
  obtain ⟨hok, herror, -, -⟩ := digest_read_by_read .sha256 path
  constructor
  · refine (hok _ _).mpr ⟨short, rfl, fun i e hfails => ?_, rfl⟩
    cases hfails.2
  · exact (herror _ _).mpr (.inr ⟨failing, 3, .other "EIO", rfl, ⟨by decide, rfl⟩, rfl⟩)

end TransferBoard
