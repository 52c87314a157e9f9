import TransferBoard.Batch.Screen
import TransferBoard.Program.Outcome

/-!
# A run that copies files

The sources may be edited first. Then the copies are made under the dashboard, the user
is asked about them, and what became of them is written once the dashboard has left the
screen. How the copies are made is a matter of schedule, so the part before and the part
after are definitions of their own.

## Main definitions

* `Surroundings` — what a run finds: the arguments, the disk, the terminal, the keys.
* `CopyRequest.prepare` — everything up to the first copy.
* `CopyLaunch.copies` — the copies, with the control channel taking keys meanwhile.
* `CopyLaunch.conclude` — everything after the last copy.
* `CopyRequest.run` — all of it.
-/

namespace TransferBoard

/-- The keys typed during a run, by what the program does at the time. -/
structure TypedKeys where
  /-- At the batch screen. -/
  batch : List KeyEvent := []
  /-- While copies are made. -/
  during : List KeyEvent := []
  /-- After the last copy. -/
  after : List KeyEvent := []

/-- What a run finds. -/
structure Surroundings where
  /-- The disk as seen from the working directory. -/
  disk : Disk
  /-- The directories of the user, with the settings. -/
  home : Disk := {}
  /-- The file with the settings, in those directories. -/
  configFile : Path
  /-- The surface to draw on, if there is a terminal. -/
  terminal : Option Surface := none
  /-- The keys. -/
  keys : TypedKeys := {}
  /-- What arrives on streams while copies wait for it. -/
  arriving : Bytes := #[]
  /-- The time. -/
  now : Moment := nanosPerSecond

namespace Surroundings

/-- The outcome of a run that has changed nothing but what the settings needed. -/
def untouched (s : Surroundings) (home : Disk) : RunOutcome := { disk := s.disk, home := home }

/-- Takes over the terminal. -/
def takeOver (s : Surroundings) : Except ProgramError Surface :=
  match s.terminal with
  | some surface => .ok surface
  | none => .error (.terminal .noDevice)

end Surroundings

/-! ### Before the first copy -/

/-- The request after the batch screen, with the surface and the keys that are left. -/
structure EditedRequest where
  /-- The request with the sources to copy. -/
  request : CopyRequest
  /-- The surface, if the batch screen has taken it over. -/
  surface : Option Surface := none
  /-- The keys that the batch screen has left. -/
  keysLeft : List KeyEvent := []

/-- Lets the user edit the sources, if that was asked for. Nothing comes back when the
user leaves. -/
def CopyRequest.edit (r : CopyRequest) (s : Surroundings) :
    Except ProgramError (Option EditedRequest) :=
  if !r.interactive then .ok (some { request := r })
  else
    match s.takeOver with
    | .error e => .error e
    | .ok surface =>
      let list := SourceList.ofItems (r.sources.map Path.text)
      match runBatchEntry list none s.keys.batch surface with
      | (.error e, _, _) => .error (.batch e)
      | (.ok .quit, _, _) => .ok none
      | (.ok (.start items), keys, surface) =>
        .ok (some ⟨{ r with sources := items.map Path.mk }, some surface, keys⟩)

/-- All that is needed to make copies. -/
structure CopyLaunch where
  /-- The request. -/
  request : CopyRequest
  /-- The jobs. -/
  jobs : List CopyJob
  /-- The number of copies at a time. -/
  concurrency : Nat
  /-- The bytes to move at a time. -/
  bufferBytes : Nat
  /-- The disk. -/
  disk : Disk
  /-- The session with the dashboard. -/
  session : Session

/-- Makes jobs, the directory to copy into, and a session. A failure tells what the disk
is like by then. -/
def EditedRequest.launch (e : EditedRequest) (s : Surroundings) (config : Config) :
    Except (ProgramError × Disk) CopyLaunch :=
  match e.request.jobs config with
  | .error cause => .error (.jobs cause, s.disk)
  | .ok jobs =>
    match s.disk.makeDirs e.request.dest with
    | (.error cause, disk) => .error (.makeDest e.request.dest cause, disk)
    | (.ok (), disk) =>
      match e.surface.elim s.takeOver .ok with
      | .error cause => .error (cause, disk)
      | .ok surface => .ok {
          request := e.request
          jobs := jobs
          concurrency := e.request.concurrency.getD config.maxConcurrentTransfers
          bufferBytes := config.copyBufferBytes
          disk := disk
          session := Session.start config surface (e.keysLeft ++ s.keys.during) s.now }

/-! ### The copies -/

/-- The copies when they are over. -/
structure CopiesMade where
  /-- The results in the order of the jobs. -/
  results : List CopyResult
  /-- The end had been asked for when the program looked, once all of them were there. -/
  cancelled : Bool
  /-- The session. -/
  session : Session
  /-- The disk. -/
  disk : Disk

namespace CopyLaunch

/-- The copies, one worker after the other as far as each gets. Then the control channel
takes its keys and the streams deliver, and the workers go on. Nothing comes back when a
copy still has to wait. -/
def copies (launch : CopyLaunch) (s : Surroundings) : Option CopiesMade :=
  let batch := CopyBatch.of launch.jobs
  let tools : CopyTools := { bufferBytes := launch.bufferBytes }
  let start := CopyPool.start launch.jobs launch.concurrency ⟨launch.session.board, launch.disk⟩
  let pool := start.settle batch tools s.now
  let session := { launch.session with board := pool.shop.board }
  let session := session.controlTicks s.now session.keys.length
  let shop : Workshop := ⟨session.board, pool.shop.disk.deliver s.arriving⟩
  let pool := { pool with shop := shop }.settle batch tools s.now
  pool.results?.map fun results =>
    { results := results
      cancelled := pool.shop.board.isCancelled
      session := { session with board := pool.shop.board, keys := session.keys ++ s.keys.after }
      disk := pool.shop.disk }

/-! ### After the last copy -/

/-- Waits for the user and asks about the copies, unless the program has seen that the end
was asked for. Nothing comes back when there were no questions. -/
def ask (launch : CopyLaunch) (made : CopiesMade) (now : Moment) :
    Except SessionError (Option WorkflowOutcome) :=
  if made.cancelled then .ok none
  else
    match made.session.waitForCompletion now with
    | (.error e, _) => .error e
    | (.ok _, session) =>
      if launch.request.noVerify then .ok none
      else (session.verify made.disk.digest).1.map some

/-- Writes about the verification, and the report if one was asked for. -/
def writeReport (launch : CopyLaunch) (o : RunOutcome) (w : WorkflowOutcome) :
    Except ProgramError Unit × RunOutcome :=
  let o := o.print (verificationLines w)
  match launch.request.report with
  | none => (.ok (), o)
  | some path =>
    match w.save o.disk path with
    | (.error e, disk) => (.error (.report e), { o with disk := disk })
    | (.ok (), disk) =>
      (.ok (), { o with disk := disk }.print ["report written to " ++ path.text])

/-- Everything after the last copy. A run in which a copy failed ends with an error,
whatever becomes of the rest. -/
def conclude (launch : CopyLaunch) (made : CopiesMade) (home : Disk) (now : Moment) : RunOutcome :=
  let o : RunOutcome := { disk := made.disk, home := home }
  match launch.ask made now with
  | .error e => o.failed (.session e)
  | .ok asked =>
    let o := o.tell launch.jobs made.results
    let (written, o) := match asked with
      | some w => launch.writeReport o w
      | none => (.ok (), o)
    match written with
    | .error e => o.failed e
    | .ok () =>
      let failed := failureCount made.results
      if failed = 0 then o else o.failed (.copiesFailed failed launch.jobs.length)

end CopyLaunch

/-! ### All of it -/

/-- What is written when the user leaves the batch screen. -/
def nothingCopied : String := "nothing copied"

/-- A run that copies files. Nothing comes back when a copy has to wait forever. -/
def CopyRequest.run (r : CopyRequest) (s : Surroundings) (config : Config) (home : Disk) :
    Option RunOutcome :=
  match r.edit s with
  | .error e => some ((s.untouched home).failed e)
  | .ok none => some ((s.untouched home).print [nothingCopied])
  | .ok (some edited) =>
    match edited.launch s config with
    | .error (e, disk) => some ({ s.untouched home with disk := disk }.failed e)
    | .ok launch => (launch.copies s).map fun made => launch.conclude made home s.now

end TransferBoard
