import TransferBoard.Board.State
import TransferBoard.Display.Quantity
import TransferBoard.Terminal.Surface

/-!
# Frames

A frame shows the state of the dashboard: a header of three rows, the entries in
blocks of four rows, and a footer of two. What does not fit in between is reached by
scrolling.

## Main definitions

* `visibleCapacity height` — the number of entries that fit on a screen.
* `Frame.calls state width height now` — the calls that draw the frame, in order.
* `BoardState.render` — fits the state to a surface and draws the frame on it.
-/

namespace TransferBoard

/-- The rows above the entries. -/
def headerRows : Nat := 3

/-- The rows below the entries. -/
def footerRows : Nat := 2

/-- The rows of each entry. -/
def rowsPerEntry : Nat := 4

/-- The column that texts start in. -/
def margin : Nat := 2

/-- The entries that fit between header and footer, and one at least. -/
def visibleCapacity (height : Nat) : Nat :=
  max ((height - (headerRows + footerRows)) / rowsPerEntry) 1

namespace Frame

/-- The heading of the screen. -/
def title : String := " tdash - Transfer Dashboard "

/-- The least width of a progress bar. -/
def minBarWidth : Nat := 10

/-- The rule across the screen. -/
def rule (width : Nat) : String := String.ofList (List.replicate width '-')

/-- What the header says about the flags: the end goes before the pause. -/
def badge (c : Controls) : String × Tone :=
  if c.cancelled then ("CANCELLING...", .error)
  else if c.paused then ("PAUSED", .warning)
  else ("RUNNING", .success)

/-- The number of entries whose transfer is going on. -/
def activeText (s : BoardState) : String := "Active: " ++ toString s.activeCount

/-- Which of the entries are shown. -/
def rangeText (c : Controls) (count : Nat) : String :=
  "[" ++ toString (c.scrollOffset + 1) ++ "-"
    ++ toString (min (c.scrollOffset + c.visibleCapacity) count)
    ++ " of " ++ toString count ++ "]"

/-- The keys that there are, as the footer tells them. -/
def legend (c : Controls) : String :=
  if c.paused then "[p] Resume   [c/Esc] Cancel   [j/k] Scroll"
  else "[p] Pause   [c/Esc] Cancel   [j/k] Scroll"

/-- The header: the title, the flags with the range of entries if not all fit, and
a rule. -/
def header (s : BoardState) (width : Nat) : List DrawCall :=
  let status := activeText s
  let badgeCol := margin + status.length + 3
  let (text, tone) := badge s.controls
  let count := s.entryCount
  [.clear 0 headerRows,
   .put 0 0 (padEnd width ' ' title) .header,
   .put 1 margin status .info,
   .put 1 badgeCol text tone]
  ++ (if s.controls.visibleCapacity < count then
        [.put 1 (badgeCol + text.length + 3) (rangeText s.controls count) .plain]
      else [])
  ++ [.put 2 0 (rule width) .plain]

/-- The footer: a rule and the keys, at the bottom of a screen that has room for
both. -/
def footer (s : BoardState) (width height : Nat) : List DrawCall :=
  if height < footerRows then []
  else
    let top := height - footerRows
    [.clear top height,
     .put top 0 (rule width) .plain,
     .put (top + 1) margin (legend s.controls) .plain]

/-- The name and the slot of an entry. -/
def entryTitle (e : Entry) : String := e.name ++ " (" ++ toString e.slot ++ ")"

/-- The size of the whole transfer, if it is known. -/
def totalText (e : Entry) : String := if 0 < e.total then sizeText e.total else "?"

/-- The figures of a transfer that is going on. -/
def statsText (e : Entry) (now : Moment) : String :=
  let figures := padStart 5 ' ' (fixedPlaces 1 e.percent) ++ "%   " ++ sizeText e.current
    ++ " / " ++ totalText e ++ "   " ++ rateText (e.rate now)
  match e.remaining now with
  | some seconds => figures ++ "   ETA " ++ remainingText seconds
  | none => figures

/-- The block of a transfer that is going on. -/
def activeBlock (e : Entry) (top width : Nat) (now : Moment) : List DrawCall :=
  [.put top margin (entryTitle e) .plain,
   .put (top + 1) margin (barText e.fraction (max (width - margin * 2) minBarWidth)) .bar,
   .put (top + 2) margin (statsText e now) .info]

/-- What a finished entry says about its digest. -/
def digestLine? (e : Entry) : Option (String × Tone) :=
  match e.kind with
  | none => none
  | some kind =>
    match e.digestError, e.digest with
    | some cause, _ => some (kind.label ++ ": checksum failed (" ++ cause ++ ")", .error)
    | none, none => none
    | none, some digest =>
      if e.expected.isSome then
        if e.verified then some (kind.label ++ ": " ++ digest ++ " [VERIFIED]", .success)
        else some (kind.label ++ ": " ++ digest ++ " [MISMATCH]", .error)
      else some (kind.label ++ ": " ++ digest, .info)

/-- The block of a transfer that has ended. -/
def endedBlock (e : Entry) (top : Nat) : List DrawCall :=
  .put top margin (entryTitle e) .plain ::
    match e.stopped with
    | some reason =>
      [.put (top + 1) margin "STOPPED" .warning,
       .put (top + 2) margin (reason ++ "   " ++ sizeText e.current) .warning]
    | none =>
      [.put (top + 1) margin "DONE" .success,
       .put (top + 2) margin ("Download Complete   " ++ sizeText e.current) .success]
      ++ match digestLine? e with
         | some (line, tone) => [.put (top + 3) margin line tone]
         | none => []

/-- The block of an entry. -/
def block (e : Entry) (top width : Nat) (now : Moment) : List DrawCall :=
  if e.active then activeBlock e top width now else endedBlock e top

/-- The entries that are shown. -/
def visible (s : BoardState) : List Entry :=
  (s.entries.drop s.controls.scrollOffset).take s.controls.visibleCapacity

/-- The blocks of some entries, one below the other from a row on. -/
def blocks (width : Nat) (now : Moment) : List Entry → Nat → List DrawCall
  | [], _ => []
  | e :: rest, top => block e top width now ++ blocks width now rest (top + rowsPerEntry)

/-- The entries between header and footer. -/
def body (s : BoardState) (width height : Nat) (now : Moment) : List DrawCall :=
  .clear headerRows (height - footerRows) :: blocks width now (visible s) headerRows

/-- All calls that draw the frame. -/
def calls (s : BoardState) (width height : Nat) (now : Moment) : List DrawCall :=
  header s width ++ footer s width height ++ body s width height now

end Frame

/-- Fits the state to the surface, draws the frame and shows it. -/
def BoardState.render (s : BoardState) (surface : Surface) (now : Moment) :
    BoardState × Except OsError Unit × Surface :=
  let fitted := s.fitTo (visibleCapacity surface.height)
  (fitted, surface.present (Frame.calls fitted surface.width surface.height now))

end TransferBoard
