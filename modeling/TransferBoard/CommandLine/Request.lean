import TransferBoard.Copy.Job
import TransferBoard.Settings.Config
import TransferBoard.Text.Quoted

/-!
# Requests

What the program can be asked to do.

## Main definitions

* `CopyRequest`, `Shell`, `Request` — the requests.
* `Request.takesOverTerminal` — the request draws the dashboard.
* `CopyRequest.jobs` — one job for each source of a copy request.
* `JobError` — why there are no jobs.
-/

namespace TransferBoard

/-- A request to copy files. -/
structure CopyRequest where
  /-- The files to copy. -/
  sources : List Path := []
  /-- The list of files is to be edited first. -/
  interactive : Bool := false
  /-- The directory to copy them into. -/
  dest : Path
  /-- The number of copies at a time, if it is not to be that of the settings. -/
  concurrency : Option Nat := none
  /-- The kind of digest to calculate for every file. -/
  kind : Option DigestKind := none
  /-- The digests that the files should have, in the order of the files. -/
  expect : List String := []
  /-- No questions are asked about the copies. -/
  noVerify : Bool := false
  /-- Where the outcome of the questions is to be written. -/
  report : Option Path := none
  deriving DecidableEq, Repr

/-- A shell that completions can be made for. -/
inductive Shell where
  /-- The Bourne-again shell. -/
  | bash
  /-- Elvish. -/
  | elvish
  /-- The friendly interactive shell. -/
  | fish
  /-- PowerShell. -/
  | powershell
  /-- The Z shell. -/
  | zsh
  deriving DecidableEq, Repr

/-- The name of a shell on the command line. -/
def Shell.word : Shell → String
  | bash => "bash"
  | elvish => "elvish"
  | fish => "fish"
  | powershell => "powershell"
  | zsh => "zsh"

/-- The shells. -/
def Shell.all : List Shell := [bash, elvish, fish, powershell, zsh]

/-- Reads the name of a shell; its case matters. -/
def Shell.ofWord? (word : String) : Option Shell := all.find? fun s => s.word == word

/-- What the program is asked to do. -/
inductive Request where
  /-- To copy files. -/
  | copy (request : CopyRequest)
  /-- To calculate the digest of a file. -/
  | checksum (path : Path) (kind : DigestKind)
  /-- To print completions for a shell. -/
  | completions (shell : Shell)
  deriving DecidableEq, Repr

/-- The request draws the dashboard. -/
def Request.takesOverTerminal : Request → Bool
  | copy _ => true
  | _ => false

/-! ### Jobs -/

/-- Why a copy request does not amount to jobs. -/
inductive JobError where
  /-- There are more expected digests than sources. -/
  | surplusDigests (digests sources : Nat)
  /-- An expected digest has the length of no kind, and no kind was asked for. -/
  | unknownKind (expected : String) (source : Path)
  /-- Two sources have the same destination. -/
  | sharedDestination (dest : Path)
  deriving DecidableEq, Repr

/-- The wording of a copy request that does not amount to jobs. -/
def JobError.message : JobError → String
  | surplusDigests digests sources =>
    toString digests ++ " --expect values given for " ++ toString sources ++ " sources"
  | unknownKind expected source =>
    "cannot tell the checksum kind of " ++ quotedText expected ++ " for " ++ source.text
      ++ "; pass --checksum"
  | sharedDestination dest => "two sources would both be copied to " ++ dest.text

/-- The kind of digest for a file: the one asked for, or the one that the expected
digest has the length of. -/
def jobKind (asked : Option DigestKind) (expected : Option String) (source : Path) :
    Except JobError (Option DigestKind) :=
  match asked, expected with
  | some kind, _ => .ok (some kind)
  | none, none => .ok none
  | none, some digest =>
    match DigestKind.ofHexLength? digest.utf8ByteSize with
    | some kind => .ok (some kind)
    | none => .error (.unknownKind digest source)

namespace CopyRequest

/-- The job of a source with the digest given for it, if one is; a blank one is
none. -/
def job (r : CopyRequest) (asked : Option DigestKind) (source : Path) (digest : Option String) :
    Except JobError CopyJob := do
  let expected := digest.bind nonBlank?
  let kind ← jobKind asked expected source
  .ok { source := source, destDir := r.dest, kind := kind, expected := expected }

/-- The jobs of some sources, which the digests go with by position. -/
def jobsOf (r : CopyRequest) (asked : Option DigestKind) :
    List Path → List String → Except JobError (List CopyJob)
  | [], _ => .ok []
  | source :: sources, digests => do
    let job ← r.job asked source digests.head?
    let jobs ← jobsOf r asked sources digests.tail
    .ok (job :: jobs)

/-- One job for each source. The kind of digest is the one asked for, or else the one
of the settings, or else follows from the expected digest. -/
def jobs (r : CopyRequest) (config : Config) : Except JobError (List CopyJob) := do
  if r.sources.length < r.expect.length then
    throw (.surplusDigests r.expect.length r.sources.length)
  let jobs ← r.jobsOf (r.kind.or config.defaultDigest) r.sources r.expect
  match (duplicateDestinations jobs).findSome? id with
  | some dest => throw (.sharedDestination dest)
  | none => return jobs

end CopyRequest

end TransferBoard
