import TransferBoard.Digest.Kind
import TransferBoard.Digest.Md5
import TransferBoard.Digest.Sha256
import TransferBoard.Disk.Tree

/-!
# Digests of files

A file is hashed piece by piece, as the reads deliver it.

## Main definitions

* `DigestError` — why there is no digest.
* `Digester` — anything that answers with the digest of the file at a path.
* `digestOfReads kind reads` — the digest of what a sequence of reads delivers; the
  first read that fails ends it.
* `Disk.digest` — the digest of a file on the disk, read in pieces of 64 KiB.
-/

namespace TransferBoard

/-- Why there is no digest. -/
inductive DigestError where
  /-- The name of the kind stands for none. -/
  | unsupportedKind (name : String)
  /-- The file could not be opened. -/
  | «open» (path : Path) (cause : OsError)
  /-- A read failed. -/
  | read (path : Path) (cause : OsError)
  deriving DecidableEq, Repr

namespace DigestError

/-- The wording of a missing digest. -/
def message : DigestError → String
  | unsupportedKind name => "unsupported checksum kind: " ++ name
  | «open» path cause => "open " ++ path.text ++ ": " ++ cause.message
  | read path cause => "read " ++ path.text ++ ": " ++ cause.message

/-- The wording followed by its cause once more. -/
def chain : DigestError → String
  | unsupportedKind name => (unsupportedKind name).message
  | «open» path cause => («open» path cause).message ++ ": " ++ cause.message
  | read path cause => (read path cause).message ++ ": " ++ cause.message

end DigestError

/-- Whatever answers with the digest of the file at a path. -/
abbrev Digester := DigestKind → Path → Except DigestError String

namespace BlockHash

variable {σ : Type} (H : BlockHash σ)

/-- Takes in what a sequence of reads delivers, up to the first failure. -/
def absorbReads (h : Hasher σ) : List (Except OsError Bytes) → Except OsError (Hasher σ)
  | [] => .ok h
  | .error e :: _ => .error e
  | .ok piece :: rest => absorbReads (H.absorbAll h piece) rest

/-- The digest, in hexadecimal, of what a sequence of reads delivers. -/
def hexOfReads (reads : List (Except OsError Bytes)) : Except OsError String :=
  (H.absorbReads H.init reads).map fun h => hexText (H.finish h)

end BlockHash

/-- The digest of what a sequence of reads delivers. -/
def digestOfReads (kind : DigestKind) (reads : List (Except OsError Bytes)) :
    Except OsError String :=
  match kind with
  | .md5 => md5.hexOfReads reads
  | .sha256 => sha256.hexOfReads reads

/-- The most bytes that one read of a digest delivers. -/
def digestReadSize : Nat := 65536

/-- What the reads of a file deliver: its contents from an offset on, cut into
pieces. -/
def piecesFrom (contents : Bytes) (offset : Nat) : List (Except OsError Bytes) :=
  if offset < contents.size then
    .ok (contents.extract offset (offset + digestReadSize))
      :: piecesFrom contents (offset + digestReadSize)
  else []
termination_by contents.size - offset
decreasing_by unfold digestReadSize; omega

/-- What the reads of an open file deliver. A directory can be opened, but the
first read of it fails. -/
def Node.reads : Node → List (Except OsError Bytes)
  | .dir => [.error .isDirectory]
  | .file contents => piecesFrom contents 0
  | .stream arrived => piecesFrom (arrived.getD #[]) 0

/-- The digest of a file on the disk. -/
def Disk.digest (d : Disk) : Digester := fun kind path =>
  match d.openRead path with
  | .error e => .error (.open path e)
  | .ok (_, node) =>
    match digestOfReads kind node.reads with
    | .error e => .error (.read path e)
    | .ok digest => .ok digest

end TransferBoard
