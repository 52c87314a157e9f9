import TransferBoard.Program.Run

/-!
# The program

Reads the files that the arguments name, runs the program on them, and brings what has
changed back to the disk. What is on standard input is taken as the keys typed: first
those for the batch screen, if it is asked for, up to the first empty line, and then
those for the questions.
-/

namespace TransferBoard

/-! ### From the file system -/

/-- What is at a path whose directory is known to be one. -/
def readNode (path : String) : IO (Option Node) := do
  try
    let contents ← IO.FS.readBinFile path
    return some (.file contents.data)
  catch
    | .inappropriateType .. => return some .dir
    | _ => return none

/-- The place that a step leads to. -/
def Place.follow (here : Place) : Path.Component → Place
  | .root => Place.root
  | .here => here
  | .up => here.up
  | .name n => here ++ [n]

/-- Takes over what is at the places that some steps lead to. -/
def lookAlong (d : Disk) (here : Place) : List Path.Component → IO Disk
  | [] => pure d
  | step :: rest => do
    let place := here.follow step
    match d.nodeAt place with
    | some .dir => lookAlong d place rest
    | some _ => pure d
    | none =>
      match ← readNode (Disk.placeText place) with
      | some .dir => lookAlong (d.put place .dir) place rest
      | some node => pure (d.put place node)
      | none => pure d

/-- Takes over what is at some paths. -/
def lookAt (d : Disk) (paths : List Path) : IO Disk :=
  paths.foldlM (fun d p => lookAlong d [] p.components) d

/-- The paths that copies of some sources touch. -/
def CopyRequest.touched (r : CopyRequest) : List Path :=
  let targets := r.sources.filterMap fun source =>
    CopyJob.destination? { source := source, destDir := r.dest }
  r.sources ++ r.dest :: targets ++ targets.map tempPath ++ r.report.toList

/-- The paths that a request touches. The sources may come from the batch screen. -/
def Request.touched (s : Surroundings) : Request → List Path
  | .copy r =>
    match r.edit s with
    | .ok (some edited) => edited.request.touched
    | _ => []
  | .checksum path _ => [path]
  | .completions _ => []

/-! ### To the file system -/

/-- Brings a node to the disk. -/
def writeNode (place : Place) : Node → IO Unit
  | .dir => IO.FS.createDirAll (Disk.placeText place)
  | .file contents => IO.FS.writeBinFile (Disk.placeText place) ⟨contents⟩
  | .stream _ => pure ()

/-- Brings what has changed to the disk: directories before what is in them. -/
def bringBack (old new : Disk) : IO Unit := do
  let changed := new.entries.filter fun e => old.nodeAt e.1 != some e.2
  for e in changed.mergeSort fun a b => a.1.length ≤ b.1.length do
    writeNode e.1 e.2
  for e in old.entries do
    if (new.nodeAt e.1).isNone then IO.FS.removeFile (Disk.placeText e.1)

/-! ### The run -/

/-- A directory that an environment variable names. -/
def envDir (name : String) : IO (Option Path) := do
  return ((← IO.getEnv name).bind nonBlank?).map Path.mk

/-- Where the files of the user are. -/
def findBaseDirs : IO BaseDirs := do
  return {
    home := (← envDir "HOME").getD ⟨"/"⟩
    configHome := ← envDir "XDG_CONFIG_HOME"
    stateHome := ← envDir "XDG_STATE_HOME" }

/-- The keys for the batch screen and those for the questions. -/
def splitKeys (interactive : Bool) (typed : String) : TypedKeys :=
  let press (text : String) : List KeyEvent := (keysOfText text).map .press
  if interactive then
    match typed.splitOn "\n\n" with
    | first :: rest => { batch := press first, after := press ("\n\n".intercalate rest) }
    | [] => {}
  else { after := press typed }

/-- The batch screen is asked for. -/
def Request.isInteractive : Request → Bool
  | .copy r => r.interactive
  | _ => false

/-- What the run finds, as far as the request can touch it. -/
def findSurroundings (request : Request) : IO Surroundings := do
  let dirs ← findBaseDirs
  let typed ← if request.takesOverTerminal then (← IO.getStdin).readToEnd else pure ""
  let s : Surroundings := {
    disk := {}
    home := ← lookAt {} [dirs.configFile]
    configFile := dirs.configFile
    terminal := some (Surface.new 80 24)
    keys := splitKeys request.isInteractive typed }
  return { s with disk := ← lookAt {} (request.touched s) }

/-- Writes what a run has to say, and tells its exit status. -/
def deliverOutcome (o : RunOutcome) : IO UInt32 := do
  for line in o.out do IO.println line
  for line in o.err do IO.eprintln line
  return o.status.toUInt32

/-- Runs a request on the file system. -/
def runRequest (request : Request) : IO UInt32 := do
  let s ← findSurroundings request
  match request.run s with
  | some o =>
    bringBack s.disk o.disk
    bringBack s.home o.home
    deliverOutcome o
  | none =>
    IO.eprintln "a copy has to wait forever"
    return 1

end TransferBoard

/-- The program. -/
def main (arguments : List String) : IO UInt32 :=
  match TransferBoard.Request.ofArguments arguments with
  | .error e =>
    let s : TransferBoard.Surroundings := { disk := {}, configFile := ⟨""⟩ }
    TransferBoard.deliverOutcome (s.usage e)
  | .ok request => TransferBoard.runRequest request
