import TransferBoard.Board.Dashboard
import TransferBoard.Settings.Config
import TransferBoard.Verify.TerminalPrompter

/-!
# Sessions

A session shows a dashboard from the first frame to the end. While transfers go on,
a control channel takes the keys; afterwards they answer questions.

## Main definitions

* `Session`, `Session.start` — the dashboard with its key source.
* `Session.controlTick` — the control channel takes a key, if there is one.
* `Session.waitForCompletion` — waits for a key, or for the time set.
* `Session.verify` — asks about the completed files.
* `Session.close` — ends the session.
-/

namespace TransferBoard

/-- What the control channel does. -/
inductive ControlChannel where
  /-- It takes keys. -/
  | running
  /-- It has been stopped and has handed the key source back. -/
  | stopped
  /-- It broke down with its key source. -/
  | broken
  deriving DecidableEq, Repr

/-- A dashboard with its key source. -/
structure Session where
  /-- The dashboard. -/
  board : Dashboard
  /-- The keys to come. -/
  keys : List KeyEvent := []
  /-- What the control channel does. -/
  control : ControlChannel := .running
  /-- The settings. -/
  config : Config := {}
  /-- The session has ended. -/
  closed : Bool := false

/-- Why a session could not go on. -/
inductive SessionError where
  /-- The surface or the key source failed. -/
  | terminal (cause : OsError)
  /-- The end of the wait lies beyond the range of the clock. -/
  | clockOverflow
  /-- There is no key source to answer questions with. -/
  | noKeys
  /-- The workflow failed. -/
  | workflow (cause : WorkflowError)
  deriving DecidableEq, Repr

/-- The wording of a session that could not go on. -/
def SessionError.message : SessionError → String
  | terminal cause => cause.message
  | clockOverflow => "overflow when adding duration to instant"
  | noKeys => "no key input available for verification prompts"
  | workflow cause => cause.message

/-- The first moment beyond the range of the clock, which counts seconds in signed
64-bit words. -/
def clockEnd : Moment := 0x8000000000000000 * nanosPerSecond

namespace Session

/-- Starts a session on a surface, with a first frame. -/
def start (config : Config) (surface : Surface) (keys : List KeyEvent) (now : Moment) : Session :=
  let board : Dashboard := { surface := surface, redrawInterval := config.redrawInterval }
  { board := board.redraw true now
    keys := keys
    config := config }

/-- One look of the control channel: a key takes its effect, a failure is passed over,
and a breakdown ends the channel. -/
def controlTick (s : Session) (now : Moment) : Session :=
  match s.control, s.keys with
  | .running, .press key :: rest => { s with keys := rest, board := (s.board.pressKey key now).2 }
  | .running, .failure _ :: rest => { s with keys := rest }
  | .running, .crash :: rest => { s with keys := rest, control := .broken }
  | _, _ => s

/-- The control channel takes the given number of keys. -/
def controlTicks (s : Session) (now : Moment) : Nat → Session
  | 0 => s
  | n + 1 => controlTicks (s.controlTick now) now n

/-- Stops the control channel. A broken one does not hand the key source back. -/
def stopControl (s : Session) : Session :=
  match s.control with
  | .running => { s with control := .stopped }
  | _ => s

/-- The text shown after the last transfer. -/
def completionText (c : Config) : String :=
  "All transfers finished. Press any key to continue (auto in "
    ++ toString c.completionWaitSecs ++ "s)"

/-- The calls that show it, in the bottom row. -/
def completionCalls (c : Config) (height : Nat) : List DrawCall :=
  let row := height - 1
  [.clear row (row + 1), .put row margin (completionText c) .warning]

/-- Looks for a key while the wait is on. With the keys known beforehand, the first
one decides; without one the wait runs out. -/
def awaitKey (wait : Nat) (keys : List KeyEvent) : Except OsError Bool × List KeyEvent :=
  if wait = 0 then (.ok false, keys)
  else
    match readKey keys with
    | (.ok (some _), rest) => (.ok true, rest)
    | (.ok none, rest) => (.ok false, rest)
    | (.error e, rest) => (.error e, rest)

/-- Shows that all transfers are complete, and waits for a key, or for the time set.
Tells whether a key was pressed. -/
def waitForCompletion (s : Session) (now : Moment) : Except SessionError Bool × Session :=
  let s := s.stopControl
  let board := s.board.redraw true now
  let (shown, surface) := board.surface.present (completionCalls s.config board.surface.height)
  let s := { s with board := { board with surface := surface } }
  match shown with
  | .error e => (.error (.terminal e), s)
  | .ok () =>
    if s.control = .broken then (.ok false, s)
    else if clockEnd ≤ now + s.config.completionWait then (.error .clockOverflow, s)
    else
      match awaitKey s.config.completionWait s.keys with
      | (.ok pressed, rest) => (.ok pressed, { s with keys := rest })
      | (.error e, rest) => (.error (.terminal e), { s with keys := rest })

/-- Asks about the completed files. -/
def verify (s : Session) (digester : Digester) : Except SessionError WorkflowOutcome × Session :=
  let s := s.stopControl
  if s.control = .broken then (.error .noKeys, s)
  else
    let screen : PromptScreen := { surface := s.board.surface, keys := s.keys }
    let (r, screen) := runWorkflow terminalPrompter digester s.board.state.completed.files screen
    let s := { s with board := { s.board with surface := screen.surface }, keys := screen.keys }
    match r with
    | .ok outcome => (.ok outcome, s)
    | .error e => (.error (.workflow e), s)

/-- Ends the session: the control channel first, then the dashboard. Once is
enough. -/
def close (s : Session) : Session :=
  if s.closed then s
  else
    let s := s.stopControl
    { s with closed := true, board := s.board.teardown }

end Session

end TransferBoard
