import TransferBoard.Text.Json
import TransferBoard.Verify.Workflow

/-!
# Reports

The outcome of a verification as a JSON text, and the file that it is written to.

## Main definitions

* `WorkflowOutcome.report` — the text.
* `ReportError` — why the file could not be written.
* `WorkflowOutcome.save` — writes the file, with the directories that lead to it.
-/

namespace TransferBoard

/-- The status of a file, with the reason of a failure. -/
def VerifyStatus.json : VerifyStatus → JsonValue
  | .failed reason => .obj [("state", .str "failed"), ("reason", .str reason)]
  | s => .obj [("state", .str s.word)]

/-- What is known about a file. -/
def CompletedFile.json (f : CompletedFile) : JsonValue :=
  .obj [("display_name", .str f.name),
    ("path", .str f.path.text),
    ("kind", .ofText? (f.kind.map DigestKind.word)),
    ("digest", .ofText? f.digest),
    ("expected_digest", .ofText? f.expected),
    ("computed", .bool f.computed),
    ("verified", .bool f.verified),
    ("state", f.status.json)]

/-- The counts. -/
def VerifySummary.json (s : VerifySummary) : JsonValue :=
  .obj [("verified", .num s.verified), ("failed", .num s.failed), ("skipped", .num s.skipped)]

namespace WorkflowOutcome

/-- The outcome as a value. -/
def json (o : WorkflowOutcome) : JsonValue :=
  .obj [("status", .str o.status.word),
    ("summary", o.summary.json),
    ("files", .arr (o.files.map CompletedFile.json))]

/-- The outcome as a text over several lines. -/
def report (o : WorkflowOutcome) : String := o.json.pretty

end WorkflowOutcome

/-- Why a report could not be written. -/
inductive ReportError where
  /-- A directory on the way to it could not be made. -/
  | makeDir (path : Path) (cause : OsError)
  /-- The file could not be written. -/
  | write (path : Path) (cause : OsError)
  deriving DecidableEq, Repr

/-- The wording of a report that could not be written. -/
def ReportError.message : ReportError → String
  | makeDir path cause => "create dir: " ++ path.text ++ ": " ++ cause.message
  | write path cause => "write verification report: " ++ path.text ++ ": " ++ cause.message

/-- Makes the directory that a file is to be in. A bare name needs none. -/
def Disk.makeParent (d : Disk) (path : Path) : Except ReportError Unit × Disk :=
  match path.parent? with
  | none => (.ok (), d)
  | some parent =>
    if parent.text = "" then (.ok (), d)
    else
      let (made, d) := d.makeDirs parent
      (made.mapError (.makeDir parent), d)

/-- Writes the report to a path. Directories made for it stay when the file itself
cannot be written. -/
def WorkflowOutcome.save (o : WorkflowOutcome) (d : Disk) (path : Path) :
    Except ReportError Unit × Disk :=
  match d.makeParent path with
  | (.error e, d) => (.error e, d)
  | (.ok (), d) =>
    match d.writeFile path o.report.toUTF8.data with
    | .error e => (.error (.write path e), d)
    | .ok d' => (.ok (), d')

end TransferBoard
