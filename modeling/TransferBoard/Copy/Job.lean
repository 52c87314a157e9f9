import TransferBoard.Digest.OfFile

/-!
# Jobs

A job copies a file into a directory. The copy is made under a temporary name beside
its destination and gets its own name at the end.

## Main definitions

* `CopyJob` — what to copy where, and the digest to calculate.
* `CopyJob.destination?` — where the copy lands; a source without a name has none.
* `tempPath` — the temporary name of a destination.
* `duplicateDestinations jobs` — for each job, the destination that an earlier one
  has taken already.
-/

namespace TransferBoard

/-- A file to copy into a directory. -/
structure CopyJob where
  /-- The file. -/
  source : Path
  /-- The directory. -/
  destDir : Path
  /-- The kind of digest to calculate at the end. -/
  kind : Option DigestKind := none
  /-- The digest that the copy should have, if that is known. -/
  expected : Option String := none
  deriving DecidableEq, Repr

/-- Where the copy lands: the name of the source, in the directory. -/
def CopyJob.destination? (job : CopyJob) : Option Path :=
  job.source.fileName?.map job.destDir.child

/-- What is put after a destination to make the temporary name. -/
def tempSuffix : String := ".part"

/-- The temporary name of a destination. -/
def tempPath (p : Path) : Path := p.extend tempSuffix

/-- For each job, the destination that is among those seen or that an earlier job
has. -/
def duplicatesAfter (seen : List Path) : List CopyJob → List (Option Path)
  | [] => []
  | job :: rest =>
    match job.destination? with
    | none => none :: duplicatesAfter seen rest
    | some dest =>
      if seen.any fun p => p.same dest then some dest :: duplicatesAfter seen rest
      else none :: duplicatesAfter (seen ++ [dest]) rest

/-- For each job, the destination that an earlier one has taken already. -/
def duplicateDestinations (jobs : List CopyJob) : List (Option Path) := duplicatesAfter [] jobs

end TransferBoard
