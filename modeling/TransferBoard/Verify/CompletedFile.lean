import TransferBoard.Digest.OfFile
import TransferBoard.Verify.Status

/-!
# Completed files

A completed file is what transfers have left behind. The files are kept in the
order in which they were completed, one for each place.

## Main definitions

* `CompletedFile` — a file with what is known about its digest.
* `CompletedFile.expecting` — a file of which nothing is known
  yet, or an expected digest.
* `CompletedFile.startCalculation`, `recordDigest`, `resolve` — the steps of its
  verification. A step that is not allowed leaves the file as it was.
* `CompletedFiles`, `CompletedFiles.register` — the files in order, without repeats.
-/

namespace TransferBoard

/-- A file that transfers have left behind. -/
structure CompletedFile where
  /-- The name that is shown. -/
  name : String
  /-- Where the file is. -/
  path : Path
  /-- The kind of digest chosen for it. -/
  kind : Option DigestKind := none
  /-- The digest, once there is one. -/
  digest : Option String := none
  /-- The digest that it should have, if that is known. -/
  expected : Option String := none
  /-- There is a digest. -/
  computed : Bool := false
  /-- The digest is the expected one. -/
  verified : Bool := false
  /-- Where its verification is. -/
  status : VerifyStatus := .notRequested
  deriving DecidableEq, Repr

namespace CompletedFile

/-- A file of which nothing is known but an expected digest, if one was given that
is not blank. -/
def expecting (name : String) (path : Path) (expected : Option String) : CompletedFile :=
  { name := name, path := path, expected := expected.bind nonBlank? }

/-- Starts the calculation of a digest of the given kind. -/
def startCalculation (f : CompletedFile) (kind : DigestKind) :
    Except InvalidTransition CompletedFile :=
  f.status.toCalculating.map fun s => { f with status := s, kind := some kind }

/-- Notes the outcome of the calculation. -/
def recordDigest (f : CompletedFile) :
    Except DigestError String → Except InvalidTransition CompletedFile
  | .ok digest =>
    f.status.toCalculated.map fun s =>
      { f with status := s, digest := some digest, computed := true }
  | .error e =>
    (f.status.toFailed e.message).map fun s =>
      { f with status := s, digest := none, computed := false }

/-- The digest is there and matches the given one. -/
def matchesDigest (f : CompletedFile) (expected : String) : Bool :=
  match f.digest with
  | some d => digestsMatch d expected
  | none => false

/-- Compares with the digest that the user expects; with a blank answer the file
does without the comparison. -/
def resolve (f : CompletedFile) (answer : String) : Except InvalidTransition CompletedFile :=
  match nonBlank? answer with
  | none => f.status.toSkipped.map fun s => { f with status := s }
  | some expected =>
    let matched := f.matchesDigest expected
    (f.status.toCompared matched).map fun s =>
      { f with status := s, expected := some expected, verified := matched }

end CompletedFile

/-- The completed files in order. -/
structure CompletedFiles where
  /-- The files, the first one completed first. -/
  files : List CompletedFile := []
  deriving DecidableEq, Repr

namespace CompletedFiles

/-- There is a file for the place that a path stands for. -/
def contains (c : CompletedFiles) (path : Path) : Bool :=
  c.files.any fun f => f.path.same path

/-- Adds a file, unless there is one for its place already. Tells whether it was
added. -/
def register (c : CompletedFiles) (f : CompletedFile) : Bool × CompletedFiles :=
  if c.contains f.path then (false, c) else (true, ⟨c.files ++ [f]⟩)

/-- The number of files. -/
def size (c : CompletedFiles) : Nat := c.files.length

end CompletedFiles

end TransferBoard
