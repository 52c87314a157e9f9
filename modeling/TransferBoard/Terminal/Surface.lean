import TransferBoard.Disk.OsError
import TransferBoard.Terminal.Grid

/-!
# Surfaces

A surface is what the program draws on: a grid, with a record of the calls made.
Showing what was drawn may fail, and so may giving the terminal back.

## Main definitions

* `Tone` — the role of a text, which decides its colour.
* `DrawCall` — the calls made on a surface.
* `Surface` — the grid with its size, the calls so far, and the failures to come.
* `Surface.put`, `clear`, `flush`, `release` — the calls.
* `Surface.drawAll calls`, `Surface.present calls` — several calls in order, and
  showing the result.
-/

namespace TransferBoard

/-- The role of a text. -/
inductive Tone where
  /-- Ordinary text. -/
  | plain
  /-- A heading. -/
  | header
  /-- A piece of information. -/
  | info
  /-- A progress bar. -/
  | bar
  /-- Something to look at. -/
  | warning
  /-- Something that went well. -/
  | success
  /-- Something that went wrong. -/
  | error
  deriving DecidableEq, Repr

/-- A call made on a surface. -/
inductive DrawCall where
  /-- A text is written into a row from a column on. -/
  | put (row col : Nat) (text : String) (tone : Tone)
  /-- The rows from `top` up to but without `bottom` are blanked. -/
  | clear (top bottom : Nat)
  /-- What was drawn is shown. -/
  | flush
  /-- What was drawn should have been shown, but could not. -/
  | flushFailed
  /-- The terminal is given back. -/
  | release
  deriving DecidableEq, Repr

/-- What a call does to a grid. -/
def DrawCall.onGrid {width height : Nat} (g : Grid width height) : DrawCall → Grid width height
  | put row col text _ => g.put row col text
  | clear top bottom => g.clear top bottom
  | _ => g

/-- A place to draw on. -/
structure Surface where
  /-- The number of columns. -/
  width : Nat
  /-- The number of rows. -/
  height : Nat
  /-- What has been drawn. -/
  grid : Grid width height
  /-- The calls so far, the latest one first. -/
  calls : List DrawCall := []
  /-- The number of times that the drawing was to be shown. -/
  flushAttempts : Nat := 0
  /-- The number of times that it was shown. -/
  flushes : Nat := 0
  /-- Why showing it for the `n`-th time fails, counted from zero. -/
  flushFault : Nat → Option OsError := fun _ => none
  /-- The terminal has been given back. -/
  released : Bool := false
  /-- Why giving the terminal back fails. -/
  releaseFault : Option OsError := none

namespace Surface

/-- An empty surface on which nothing fails. -/
def new (width height : Nat) : Surface :=
  { width := width, height := height, grid := Grid.blank width height }

/-- Notes a call that only draws. -/
def draw (s : Surface) (call : DrawCall) : Surface :=
  { s with grid := call.onGrid s.grid, calls := call :: s.calls }

/-- Writes a text into a row from a column on. -/
def put (s : Surface) (row col : Nat) (text : String) (tone : Tone) : Surface :=
  s.draw (.put row col text tone)

/-- Blanks the rows from `top` up to but without `bottom`. -/
def clear (s : Surface) (top bottom : Nat) : Surface := s.draw (.clear top bottom)

/-- Shows what was drawn. -/
def flush (s : Surface) : Except OsError Unit × Surface :=
  match s.flushFault s.flushAttempts with
  | some e =>
    (.error e, { s with calls := .flushFailed :: s.calls, flushAttempts := s.flushAttempts + 1 })
  | none =>
    (.ok (), { s with
      calls := .flush :: s.calls
      flushAttempts := s.flushAttempts + 1
      flushes := s.flushes + 1 })

/-- Gives the terminal back. The surface counts as given back even when that
fails. -/
def release (s : Surface) : Except OsError Unit × Surface :=
  let s' := { s with calls := .release :: s.calls, released := true }
  match s.releaseFault with
  | some e => (.error e, s')
  | none => (.ok (), s')

/-- Draws a list of calls in order. -/
def drawAll (s : Surface) (calls : List DrawCall) : Surface := calls.foldl draw s

/-- Draws a list of calls in order and shows the result. -/
def present (s : Surface) (calls : List DrawCall) : Except OsError Unit × Surface :=
  (s.drawAll calls).flush

end Surface

end TransferBoard
