import TransferBoard.Board.Session
import TransferBoard.CommandLine.Arguments
import TransferBoard.Copy.Pool
import TransferBoard.Settings.Load
import TransferBoard.Verify.Report

/-!
# What a run of the program ends with

## Main definitions

* `ProgramError` — what ends the program before its work is done.
* `RunOutcome` — the exit status, the lines written, and the disk afterwards.
* `copyLine?`, `failureLine?`, `verificationLines` — the lines about copies and their
  verification.
-/

namespace TransferBoard

/-- What ends the program before its work is done, or with some of it failed. -/
inductive ProgramError where
  /-- There are no settings. -/
  | config (cause : ConfigError)
  /-- The terminal is not there to be taken over. -/
  | terminal (cause : OsError)
  /-- The batch screen failed. -/
  | batch (cause : OsError)
  /-- The request does not amount to jobs. -/
  | jobs (cause : JobError)
  /-- The directory to copy into could not be made. -/
  | makeDest (dest : Path) (cause : OsError)
  /-- The session could not go on. -/
  | session (cause : SessionError)
  /-- The report could not be written. -/
  | report (cause : ReportError)
  /-- The digest could not be calculated. -/
  | digest (cause : DigestError)
  /-- Some copies failed. -/
  | copiesFailed (failed total : Nat)
  deriving DecidableEq, Repr

namespace ProgramError

/-- The wording of what ended the program. -/
def message : ProgramError → String
  | config cause => cause.message
  | terminal cause => "failed to take over the terminal: " ++ cause.message
  | batch cause => "batch entry screen: " ++ cause.message
  | jobs cause => cause.message
  | makeDest dest cause => "create destination: " ++ dest.text ++ ": " ++ cause.message
  | session cause => cause.message
  | report cause => cause.message
  | digest cause => cause.chain
  | copiesFailed failed total => toString failed ++ " of " ++ toString total ++ " copies failed"

/-- The program broke down rather than gave up. -/
def isBreakdown : ProgramError → Bool
  | session .clockOverflow => true
  | _ => false

/-- The exit status: one of its own for a breakdown. -/
def exitStatus (e : ProgramError) : Nat := if e.isBreakdown then 101 else 1

/-- The line that tells of it. -/
def line (e : ProgramError) : String :=
  if e.isBreakdown then e.message else "tdash error: " ++ e.message

end ProgramError

/-- What a run of the program ends with. -/
structure RunOutcome where
  /-- The exit status. -/
  status : Nat := 0
  /-- The lines written to standard output. -/
  out : List String := []
  /-- The lines written to standard error. -/
  err : List String := []
  /-- The disk afterwards. -/
  disk : Disk
  /-- The directories of the user afterwards. -/
  home : Disk

namespace RunOutcome

/-- Ends with an error, after what was written before. -/
def failed (o : RunOutcome) (e : ProgramError) : RunOutcome :=
  { o with status := e.exitStatus, err := o.err ++ [e.line] }

/-- Writes lines to standard output. -/
def print (o : RunOutcome) (lines : List String) : RunOutcome := { o with out := o.out ++ lines }

end RunOutcome

/-! ### Lines about copies -/

/-- The line about a copy that did not fail. -/
def copyLine? (job : CopyJob) : CopyResult → Option String
  | .ok (.completed path) => some ("copied     " ++ path.text)
  | .ok .cancelled => some ("cancelled  " ++ job.source.text)
  | .error _ => none

/-- The line about a copy that failed. -/
def failureLine? (job : CopyJob) : CopyResult → Option String
  | .error e => some ("failed     " ++ job.source.text ++ ": " ++ e.message)
  | .ok _ => none

/-- A copy failed. -/
def isFailure : CopyResult → Bool
  | .error _ => true
  | .ok _ => false

/-- The number of copies that failed. -/
def failureCount (results : List CopyResult) : Nat := results.countP isFailure

/-- Writes the lines about copies. -/
def RunOutcome.tell (o : RunOutcome) (jobs : List CopyJob) (results : List CopyResult) :
    RunOutcome :=
  { o with
    out := o.out ++ (jobs.zip results).filterMap fun p => copyLine? p.1 p.2
    err := o.err ++ (jobs.zip results).filterMap fun p => failureLine? p.1 p.2 }

/-! ### Lines about the verification -/

/-- The width of the column with what became of a file. -/
def statusColumn : Nat := 10

/-- The line about a file. -/
def fileLine (f : CompletedFile) : String :=
  padEnd statusColumn ' ' f.status.label ++ " " ++ f.digest.getD "-" ++ "  " ++ f.path.text

/-- The lines about the files that the questions have settled, and the counts. -/
def settledLines (o : WorkflowOutcome) : List String :=
  (o.files.filter fun f => f.status.isFinal).map fileLine ++ [o.summary.text]

/-- The lines about the verification. -/
def verificationLines (o : WorkflowOutcome) : List String :=
  match o.status with
  | .declined => ["verification skipped"]
  | .aborted => "verification stopped early" :: settledLines o
  | .completed => settledLines o

end TransferBoard
