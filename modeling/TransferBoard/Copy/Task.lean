import TransferBoard.Board.Dashboard
import TransferBoard.Copy.Job

/-!
# Copying one file

A copy moves its source piece by piece into a temporary file, which is given its own
name only when all of it is there. A copy that fails or is cancelled removes the
temporary file again.

Other copies, and the user, act between any two steps. So a copy is written as its
steps: each does one thing to the disk, or holds the lock of the dashboard once.

## Main definitions

* `Workshop` — what copies share: the dashboard and the disk.
* `CopyError`, `CopyOutcome` — how a copy ends.
* `CopyPlan` — a job with the names that follow from it.
* `CopyStage` — what a copy does next.
* `CopyPlan.step` — one step, in which a failure may strike.
* `CopyStage.isBlocked` — the copy has to wait: for the end of a pause, or for a
  stream.
* `CopyPlan.settle` — steps until the copy ends or has to wait.
* `copyFile` — a whole copy.
-/

namespace TransferBoard

/-- What copies share. -/
structure Workshop where
  /-- The dashboard that they report to. -/
  board : Dashboard
  /-- The disk that they read and write. -/
  disk : Disk

/-- Why a copy failed. -/
inductive CopyError where
  /-- The source has no name for the copy to take. -/
  | noFileName (source : Path)
  /-- The source could not be opened. -/
  | openSource (source : Path) (cause : OsError)
  /-- The size of the source could not be told. -/
  | statSource (source : Path) (cause : OsError)
  /-- The temporary file could not be made. -/
  | createTemp (temp : Path) (cause : OsError)
  /-- The source could not be read. -/
  | readSource (source : Path) (cause : OsError)
  /-- The temporary file could not be written. -/
  | writeTemp (source temp : Path) (cause : OsError)
  /-- The temporary file could not be brought to the disk. -/
  | sync (source : Path) (cause : OsError)
  /-- The temporary file could not be given its name. -/
  | rename (temp target : Path) (cause : OsError)
  /-- Another job has the destination. -/
  | destinationTaken (target : Path)
  deriving DecidableEq, Repr

/-- The wording of a copy that failed. -/
def CopyError.message : CopyError → String
  | noFileName source => "source has no file name: " ++ source.text
  | openSource source cause => "open source: " ++ source.text ++ ": " ++ cause.message
  | statSource source cause => "stat source: " ++ source.text ++ ": " ++ cause.message
  | createTemp temp cause => "failed to create temp file: " ++ temp.text ++ ": " ++ cause.message
  | readSource source cause => "copy " ++ source.text ++ ": read source: " ++ cause.message
  | writeTemp source temp cause =>
    "copy " ++ source.text ++ ": write " ++ temp.text ++ ": " ++ cause.message
  | sync source cause => "copy " ++ source.text ++ ": storage sync failed: " ++ cause.message
  | rename temp target cause =>
    "failed to rename " ++ temp.text ++ " to " ++ target.text ++ ": " ++ cause.message
  | destinationTaken target => target.text ++ " is already the destination of another source"

/-- How a copy that did not fail ended. -/
inductive CopyOutcome where
  /-- The copy is at this path. -/
  | completed (path : Path)
  /-- The user ended it. -/
  | cancelled
  deriving DecidableEq, Repr

/-- How a copy ended. -/
abbrev CopyResult := Except CopyError CopyOutcome

/-- A job with the names that follow from it. -/
structure CopyPlan where
  /-- The job. -/
  job : CopyJob
  /-- The name that is shown. -/
  name : String
  /-- Where the copy lands. -/
  target : Path
  /-- Where it is made. -/
  temp : Path
  deriving DecidableEq, Repr

/-- The plan of a job. A source without a name has none. -/
def CopyJob.plan? (job : CopyJob) : Option CopyPlan :=
  job.source.fileName?.map fun name =>
    let target := job.destDir.child name
    ⟨job, name, target, tempPath target⟩

/-- A copy under way. -/
structure CopyRun where
  /-- Where the source is. -/
  source : Place
  /-- Where the temporary file is. -/
  temp : Place
  /-- The entry on the dashboard. -/
  handle : Handle
  /-- The bytes moved so far. -/
  copied : Nat
  /-- When the first piece was about to be moved. -/
  started : Moment
  deriving DecidableEq, Repr

/-- What a copy does next. -/
inductive CopyStage where
  /-- Open the source. -/
  | opening
  /-- Tell the size of the source. -/
  | measuring (source : Place)
  /-- Make the temporary file. -/
  | creating (source : Place) (total : Nat)
  /-- Make an entry on the dashboard. -/
  | announcing (source temp : Place) (total : Nat)
  /-- Show the entry. -/
  | showing (source temp : Place) (handle : Handle)
  /-- Look whether to go on. -/
  | checking (run : CopyRun)
  /-- Read a piece of the source. -/
  | reading (run : CopyRun)
  /-- Write a piece to the temporary file. -/
  | writing (run : CopyRun) (piece : Bytes)
  /-- Tell the dashboard about a piece. -/
  | reporting (run : CopyRun) (count : Nat)
  /-- Show the progress. -/
  | drawing (run : CopyRun)
  /-- Bring the temporary file to the disk. -/
  | syncing (run : CopyRun)
  /-- Give the temporary file its name. -/
  | renaming (run : CopyRun)
  /-- Remove the temporary file, after a failure or a cancel. -/
  | discarding (run : CopyRun) (failure : Option CopyError)
  /-- Mark the entry as given up. -/
  | stopping (run : CopyRun) (failure : Option CopyError)
  /-- Show that it was given up. -/
  | showingStop (failure : Option CopyError)
  /-- Mark the entry as complete. -/
  | finishing (run : CopyRun)
  /-- Show that it is complete. -/
  | showingFinish (run : CopyRun)
  /-- Look whether a digest is needed. -/
  | choosingDigest (run : CopyRun)
  /-- Calculate the digest. -/
  | hashing (run : CopyRun) (kind : DigestKind) (path : Path)
  /-- Store the digest. -/
  | settling (run : CopyRun) (result : Except DigestError String)
  /-- Show the digest. -/
  | showingDigest
  /-- Note the file as completed. -/
  | registering
  /-- Nothing more. -/
  | ended (result : CopyResult)

/-- What may happen in one step besides what the copy does. -/
structure Turn where
  /-- The time. -/
  now : Moment
  /-- Why an operation on the disk fails. -/
  fault : Option OsError := none
  /-- The most bytes that a read delivers. -/
  readLimit : Option Nat := none

/-- What a copy is made with. -/
structure CopyTools where
  /-- The bytes to move at a time. -/
  bufferBytes : Nat
  /-- How digests are calculated. -/
  digester : Disk → Digester := Disk.digest

/-- How a copy ends that is given up: with the failure, or as cancelled. -/
def givenUp : Option CopyError → CopyResult
  | some e => .error e
  | none => .ok .cancelled

/-- What an entry says that is given up. -/
def stopReason : Option CopyError → String
  | some _ => "Failed"
  | none => "Cancelled"

/-- The bytes that a read asks for: the buffer, and one at least, or fewer when the
read delivers less. -/
def CopyTools.readSize (tools : CopyTools) (turn : Turn) : Nat :=
  match turn.readLimit with
  | some limit => min (max tools.bufferBytes 1) (max limit 1)
  | none => max tools.bufferBytes 1

/-- The result of an operation that a failure may strike. -/
def Turn.strike {α : Type} (turn : Turn) (result : Except OsError α) : Except OsError α :=
  match turn.fault with
  | some e => .error e
  | none => result

namespace CopyStage

/-- The copy has ended. -/
def result? : CopyStage → Option CopyResult
  | ended r => some r
  | _ => none

/-- The copy has to wait: while transfers are paused, or while nothing has arrived
on the stream that it reads. -/
def isBlocked (w : Workshop) : CopyStage → Bool
  | checking _ => w.board.flow?.isNone
  | reading run => w.disk.isWaiting run.source
  | _ => false

end CopyStage

namespace CopyPlan

/-- The entry that the copy announces. -/
def request (plan : CopyPlan) (total : Nat) : EntryRequest :=
  { name := plan.name
    total := total.toUInt64
    path := some plan.target
    kind := plan.job.kind
    expected := plan.job.expected }

/-- One step of a copy. A copy that has to wait stays where it is. -/
def step (plan : CopyPlan) (tools : CopyTools) (turn : Turn) (w : Workshop) :
    CopyStage → CopyStage × Workshop
  | .opening =>
    match turn.strike (w.disk.openRead plan.job.source) with
    | .error e => (.ended (.error (.openSource plan.job.source e)), w)
    | .ok (source, _) => (.measuring source, w)
  | .measuring source =>
    match turn.strike (.ok ((w.disk.nodeAt source).elim 0 Node.size)) with
    | .error e => (.ended (.error (.statSource plan.job.source e)), w)
    | .ok total => (.creating source total, w)
  | .creating source total =>
    match turn.strike (w.disk.createFile plan.temp) with
    | .error e => (.ended (.error (.createTemp plan.temp e)), w)
    | .ok (temp, disk) => (.announcing source temp total, { w with disk := disk })
  | .announcing source temp total =>
    let (handle, board) := w.board.track (plan.request total) turn.now
    (.showing source temp handle, { w with board := board })
  | .showing source temp handle =>
    (.checking ⟨source, temp, handle, 0, turn.now⟩,
      { w with board := w.board.redraw true turn.now })
  | .checking run =>
    match w.board.flow? with
    | none => (.checking run, w)
    | some .cancelled => (.discarding run none, w)
    | some .go => (.reading run, w)
  | .reading run =>
    if w.disk.isWaiting run.source then (.reading run, w)
    else
      match turn.strike (w.disk.readAt run.source run.copied (tools.readSize turn)) with
      | .error e => (.discarding run (some (.readSource plan.job.source e)), w)
      | .ok piece => (if piece.isEmpty then .syncing run else .writing run piece, w)
  | .writing run piece =>
    match turn.strike (.ok (w.disk.append run.temp piece)) with
    | .error e => (.discarding run (some (.writeTemp plan.job.source plan.temp e)), w)
    | .ok disk => (.reporting run piece.size, { w with disk := disk })
  | .reporting run count =>
    (.drawing { run with copied := run.copied + count },
      { w with board :=
        w.board.advance run.handle count.toUInt64 (secondsBetween run.started turn.now) })
  | .drawing run => (.checking run, { w with board := w.board.redraw false turn.now })
  | .syncing run =>
    match turn.strike (.ok ()) with
    | .error e => (.discarding run (some (.sync plan.job.source e)), w)
    | .ok () => (.renaming run, w)
  | .renaming run =>
    match turn.strike (w.disk.renameFile plan.temp plan.target) with
    | .error e => (.discarding run (some (.rename plan.temp plan.target e)), w)
    | .ok disk => (.finishing run, { w with disk := disk })
  | .discarding run failure =>
    (.stopping run failure,
      match w.disk.removeFile plan.temp with
      | .ok disk => { w with disk := disk }
      | .error _ => w)
  | .stopping run failure =>
    if (w.board.entry? run.handle).isSome then
      let stopped := w.board.markStopped run.handle (stopReason failure)
      (.showingStop failure, { w with board := stopped })
    else (.ended (givenUp failure), w)
  | .showingStop failure =>
    (.ended (givenUp failure), { w with board := w.board.redraw true turn.now })
  | .finishing run => (.showingFinish run, { w with board := w.board.markFinished run.handle })
  | .showingFinish run =>
    (if plan.job.kind.isSome then .choosingDigest run else .registering,
      { w with board := w.board.redraw true turn.now })
  | .choosingDigest run =>
    match w.board.digestJob? run.handle with
    | some (kind, path) => (.hashing run kind path, w)
    | none => (.registering, w)
  | .hashing run kind path => (.settling run (tools.digester w.disk kind path), w)
  | .settling run result =>
    if (w.board.entry? run.handle).isSome then
      (.showingDigest, { w with board := w.board.settleDigest run.handle result })
    else (.registering, w)
  | .showingDigest => (.registering, { w with board := w.board.redraw true turn.now })
  | .registering =>
    (.ended (.ok (.completed plan.target)),
      { w with board := (w.board.register plan.name plan.target plan.job.expected).2 })
  | .ended r => (.ended r, w)

/-- Steps of a copy until it ends or has to wait, the given number at most. -/
def settle (plan : CopyPlan) (tools : CopyTools) (turn : Turn) :
    Nat → CopyStage → Workshop → CopyStage × Workshop
  | 0, stage, w => (stage, w)
  | n + 1, stage, w =>
    if stage.result?.isSome || stage.isBlocked w then (stage, w)
    else
      let (stage, w) := plan.step tools turn w stage
      settle plan tools turn n stage w

end CopyPlan

/-- The bytes that a source may deliver. -/
def sourceSize (d : Disk) (source : Path) : Nat :=
  match d.openRead source with
  | .ok (_, .file contents) => contents.size
  | .ok (_, .stream (some arrived)) => arrived.size
  | _ => 0

/-- A number of steps that a copy does not exceed: five for each piece, of which
there are no more than bytes, and those before and after. -/
def copySteps (d : Disk) (job : CopyJob) : Nat := 5 * (sourceSize d job.source + 1) + 24

/-- A whole copy at a moment. Without a result the copy has to wait. -/
def copyFile (job : CopyJob) (tools : CopyTools) (now : Moment) (w : Workshop) :
    Option CopyResult × Workshop :=
  match job.plan? with
  | none => (some (.error (.noFileName job.source)), w)
  | some plan =>
    let (stage, w) := plan.settle tools { now := now } (copySteps w.disk job) .opening w
    (stage.result?, w)

end TransferBoard
