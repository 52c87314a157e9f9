import TransferBoard.Terminal.Key

/-!
# Pause, cancel and scroll

## Main definitions

* `Controls` — the flags that the user sets, and which part of the list is shown.
* `ControlAction`, `controlAction? key` — what a key asks for.
* `maxScroll`, `Controls.clampScroll`, `scrollDown`, `scrollUp` — moving over a list
  of a given length.
* `Controls.apply` — the effect of a key, and whether anything has changed.
-/

namespace TransferBoard

/-- The flags that the user sets, and the part of the list that is shown. -/
structure Controls where
  /-- Transfers are to wait. -/
  paused : Bool := false
  /-- Transfers are to end. -/
  cancelled : Bool := false
  /-- The number of entries above the first one shown. -/
  scrollOffset : Nat := 0
  /-- The number of entries that fit on the screen, as of the last frame. -/
  visibleCapacity : Nat := 1
  deriving DecidableEq, Repr

/-- What a control key asks for. -/
inductive ControlAction where
  /-- Wait, or go on. -/
  | togglePause
  /-- End. -/
  | cancel
  /-- Show the next entry. -/
  | scrollDown
  /-- Show the previous entry. -/
  | scrollUp
  deriving DecidableEq, Repr

/-- What a key asks for. -/
def controlAction? : Key → Option ControlAction
  | .char 'p' => some .togglePause
  | .char 'P' => some .togglePause
  | .char 'c' => some .cancel
  | .char 'C' => some .cancel
  | .esc => some .cancel
  | .char 'j' => some .scrollDown
  | .char 'J' => some .scrollDown
  | .down => some .scrollDown
  | .char 'k' => some .scrollUp
  | .char 'K' => some .scrollUp
  | .up => some .scrollUp
  | _ => none

namespace Controls

/-- The largest offset at which a list of the given length fills the screen. -/
def maxScroll (c : Controls) (count : Nat) : Nat := count - c.visibleCapacity

/-- Moves the offset back to the largest one when it is beyond. -/
def clampScroll (c : Controls) (count : Nat) : Controls :=
  { c with scrollOffset := min c.scrollOffset (c.maxScroll count) }

/-- Sets the pause, or lifts it. -/
def togglePause (c : Controls) : Controls := { c with paused := !c.paused }

/-- Asks for the end, and lifts the pause so that nothing waits. -/
def cancel (c : Controls) : Controls := { c with cancelled := true, paused := false }

/-- Moves one entry down, unless the end of the list is on the screen. -/
def scrollDown (c : Controls) (count : Nat) : Bool × Controls :=
  if c.scrollOffset + c.visibleCapacity < count then
    (true, { c with scrollOffset := c.scrollOffset + 1 })
  else (false, c)

/-- Moves one entry up, unless the list is shown from its start. -/
def scrollUp (c : Controls) : Bool × Controls :=
  if 0 < c.scrollOffset then (true, { c with scrollOffset := c.scrollOffset - 1 })
  else (false, c)

/-- Does what was asked for, over a list of the given length. -/
def act (c : Controls) (count : Nat) : ControlAction → Bool × Controls
  | .togglePause => (true, c.togglePause)
  | .cancel => (true, c.cancel)
  | .scrollDown => c.scrollDown count
  | .scrollUp => c.scrollUp

/-- The effect of a key over a list of the given length, and whether anything has
changed. -/
def apply (c : Controls) (count : Nat) (key : Key) : Bool × Controls :=
  match controlAction? key with
  | some action => c.act count action
  | none => (false, c)

end Controls

end TransferBoard
