import TransferBoard.Board.Frame

/-!
# The dashboard

The state of the dashboard together with the surface it is shown on. Producers, the
control channel and the session share it under one lock. What happens while the lock
is held is one function here, so that any interleaving of them is a sequence of
these functions.

## Main definitions

* `Dashboard` — the shared value.
* `Dashboard.redraw` — shows the state, unless the last frame is too recent.
* `Dashboard.track`, `setPath`, `advance`, `markFinished`, `markStopped`,
  `digestJob?`, `settleDigest`, `register`, `applyKey` — the sections under the lock.
* `Dashboard.entry?`, `digest?`, `isVerified` — what is told of an entry.
* `Dashboard.create`, `draw`, `finish`, `stop`, `finishWithDigest`, `pressKey` — the
  calls made of them: a change is followed by a frame.
* `Dashboard.flow?` — what a producer is to do; nothing while it has to wait.
* `Dashboard.teardown` — forgets everything and gives the terminal back.
-/

namespace TransferBoard

/-- What a producer is to do after it has looked at the flags. -/
inductive Flow where
  /-- To go on. -/
  | go
  /-- To end. -/
  | cancelled
  deriving DecidableEq, Repr

/-- What a transfer is announced with. -/
structure EntryRequest where
  /-- The name to show. -/
  name : String
  /-- The bytes there are already. -/
  initial : UInt64 := 0
  /-- The size of the whole transfer; zero when it is unknown. -/
  total : UInt64 := 0
  /-- The file that the transfer makes. -/
  path : Option Path := none
  /-- The kind of digest to calculate at the end. -/
  kind : Option DigestKind := none
  /-- The digest that the file should have; blank for none. -/
  expected : Option String := none

/-- The state of the dashboard and where it is shown. -/
structure Dashboard where
  /-- The entries, the completed files and the flags. -/
  state : BoardState := {}
  /-- Where frames are drawn. -/
  surface : Surface
  /-- When the last frame was composed. -/
  lastDraw : Option Moment := none
  /-- Frames are drawn. -/
  live : Bool := true
  /-- The least time between a frame and one that nothing forces, in nanoseconds. -/
  redrawInterval : Nat := 0

namespace Dashboard

/-! ### Sections under the lock -/

/-- A frame is too recent for one that nothing forces. -/
def tooSoon (d : Dashboard) (now : Moment) : Bool :=
  match d.lastDraw with
  | some last => now - last < d.redrawInterval
  | none => false

/-- Composes a frame of the state and shows it. Whether showing it works makes no
difference. -/
def compose (d : Dashboard) (now : Moment) : Dashboard :=
  let (state, _, surface) := d.state.render d.surface now
  { d with state := state, surface := surface, lastDraw := some now }

/-- Shows the state. A frame that nothing forces is left out when the last one is too
recent. -/
def redraw (d : Dashboard) (forced : Bool) (now : Moment) : Dashboard :=
  if !d.live then d
  else if !forced && d.tooSoon now then d
  else d.compose now

/-- Makes an entry for a transfer. -/
def track (d : Dashboard) (r : EntryRequest) (now : Moment) : Handle × Dashboard :=
  let (h, state) := d.state.allocate r.name r.initial r.total now
  (h, { d with state := state.modify h fun e =>
    { e with path := r.path, kind := r.kind, expected := r.expected.bind nonBlank? } })

/-- Changes the entry of a handle. -/
def modify (d : Dashboard) (h : Handle) (f : Entry → Entry) : Dashboard :=
  { d with state := d.state.modify h f }

/-- Tells the file that a transfer makes. -/
def setPath (d : Dashboard) (h : Handle) (path : Path) : Dashboard :=
  d.modify h fun e => { e with path := some path }

/-- Tells that more bytes were transferred. -/
def advance (d : Dashboard) (h : Handle) (delta : UInt64) (hint : Float) : Dashboard :=
  d.modify h fun e => e.advance delta hint

/-- Tells that a transfer is complete. -/
def markFinished (d : Dashboard) (h : Handle) : Dashboard := d.modify h Entry.finish

/-- Tells that a producer has given up. -/
def markStopped (d : Dashboard) (h : Handle) (reason : String) : Dashboard :=
  d.modify h fun e => e.stop reason

/-- The entry of a handle, while it is there. -/
def entry? (d : Dashboard) (h : Handle) : Option Entry := d.state.entry? h

/-- The digest that the entry of a handle still needs, and the file for it. -/
def digestJob? (d : Dashboard) (h : Handle) : Option (DigestKind × Path) :=
  (d.entry? h).bind Entry.digestJob?

/-- The digest of the entry of a handle, once there is one. -/
def digest? (d : Dashboard) (h : Handle) : Option String := (d.entry? h).bind Entry.digest

/-- The digest of the entry of a handle is marked as the expected one. -/
def isVerified (d : Dashboard) (h : Handle) : Bool := (d.entry? h).elim false Entry.verified

/-- Stores the outcome of a digest calculation. -/
def settleDigest (d : Dashboard) (h : Handle) (result : Except DigestError String) : Dashboard :=
  d.modify h fun e => e.settleDigest result

/-- Notes a file as completed. Tells whether it was not noted before. -/
def register (d : Dashboard) (name : String) (path : Path) (expected : Option String) :
    Bool × Dashboard :=
  let (added, completed) := d.state.completed.register (CompletedFile.expecting name path expected)
  (added, { d with state := { d.state with completed := completed } })

/-- The effect of a key on the flags. Tells whether anything has changed. -/
def applyKey (d : Dashboard) (key : Key) : Bool × Dashboard :=
  let (changed, state) := d.state.applyKey key
  (changed, { d with state := state })

/-- What a producer is to do now; nothing while it has to wait. -/
def flow? (d : Dashboard) : Option Flow :=
  if d.state.controls.cancelled then some .cancelled
  else if d.state.controls.paused then none
  else some .go

/-- The end was asked for. -/
def isCancelled (d : Dashboard) : Bool := d.state.controls.cancelled

/-- Frames are drawn, and there is an entry to show. -/
def isActive (d : Dashboard) : Bool := d.live && 0 < d.state.entryCount

/-! ### Calls -/

/-- Starts to show a transfer. -/
def create (d : Dashboard) (r : EntryRequest) (now : Moment) : Handle × Dashboard :=
  let (h, d) := d.track r now
  (h, d.redraw true now)

/-- Shows the state on behalf of a producer. -/
def draw (d : Dashboard) (now : Moment) : Dashboard := d.redraw false now

/-- Shows a transfer as complete. -/
def finish (d : Dashboard) (h : Handle) (now : Moment) : Dashboard :=
  (d.markFinished h).redraw true now

/-- Shows a transfer as given up. A handle that finds no entry changes nothing and
draws nothing. -/
def stop (d : Dashboard) (h : Handle) (reason : String) (now : Moment) : Dashboard :=
  if (d.entry? h).isSome then (d.markStopped h reason).redraw true now else d

/-- Stores and shows the outcome of a digest calculation, if the entry is still
there. -/
def showDigest (d : Dashboard) (h : Handle) (result : Except DigestError String) (now : Moment) :
    Dashboard :=
  if (d.entry? h).isSome then (d.settleDigest h result).redraw true now else d

/-- Shows a transfer as complete, and calculates its digest if it has one to
calculate. The lock is not held meanwhile, so others may use the dashboard. -/
def finishWithDigest (d : Dashboard) (digester : Digester) (meanwhile : Dashboard → Dashboard)
    (h : Handle) (now : Moment) : Dashboard :=
  let d := d.finish h now
  match d.digestJob? h with
  | none => d
  | some (kind, path) => (meanwhile d).showDigest h (digester kind path) now

/-- The effect of a key, shown if there is any. Tells whether there was. -/
def pressKey (d : Dashboard) (key : Key) (now : Moment) : Bool × Dashboard :=
  let (changed, d) := d.applyKey key
  (changed, if changed then d.redraw true now else d)

/-- Sets the pause, or lifts it. -/
def togglePause (d : Dashboard) (now : Moment) : Dashboard := (d.pressKey (.char 'p') now).2

/-- Asks for the end. -/
def cancel (d : Dashboard) (now : Moment) : Dashboard := (d.pressKey (.char 'c') now).2

/-- Forgets everything, asks for the end so that nothing waits, and gives the
terminal back. Once is enough. -/
def teardown (d : Dashboard) : Dashboard :=
  if d.live then
    { d with
      live := false
      state := { d.state.clear with controls := Controls.cancel {} }
      surface := d.surface.release.2 }
  else d

end Dashboard

end TransferBoard
