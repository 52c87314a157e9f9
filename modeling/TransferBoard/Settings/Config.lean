import TransferBoard.Board.Clock
import TransferBoard.Digest.Kind

/-!
# Settings

## Main definitions

* `Config` — the settings, with their values when nothing else is said.
* `Config.pollMs`, `redrawInterval`, `completionWait` — the times they stand
  for.
* `Config.defaultText` — the file that is written when there is none.
-/

namespace TransferBoard

/-- The settings. -/
structure Config where
  /-- Milliseconds between two looks for a key while transfers go on. -/
  controlPollMs : Nat := 100
  /-- The least number of milliseconds between frames that nothing forces. -/
  redrawIntervalMs : Nat := 0
  /-- Seconds to wait for a key after the last transfer. -/
  completionWaitSecs : Nat := 10
  /-- The number of transfers at a time. -/
  maxConcurrentTransfers : Nat := 4
  /-- The bytes that a copy moves at a time. -/
  copyBufferBytes : Nat := 65536
  /-- The digest to calculate when none is asked for. -/
  defaultDigest : Option DigestKind := none
  deriving DecidableEq, Repr

namespace Config

/-- Milliseconds between two looks for a key: one at least. -/
def pollMs (c : Config) : Nat := max c.controlPollMs 1

/-- Nanoseconds between frames that nothing forces. -/
def redrawInterval (c : Config) : Nat := c.redrawIntervalMs * nanosPerMilli

/-- Nanoseconds to wait for a key after the last transfer. -/
def completionWait (c : Config) : Nat := c.completionWaitSecs * nanosPerSecond

/-- The settings with their names, as they are written. A digest is written only
when there is one. -/
def lines (c : Config) : List (String × String) :=
  [("control_poll_ms", toString c.controlPollMs),
   ("redraw_interval_ms", toString c.redrawIntervalMs),
   ("completion_wait_secs", toString c.completionWaitSecs),
   ("max_concurrent_transfers", toString c.maxConcurrentTransfers),
   ("copy_buffer_bytes", toString c.copyBufferBytes)]
  ++ match c.defaultDigest with
     | some kind => [("default_checksum", "\"" ++ kind.word ++ "\"")]
     | none => []

/-- The settings as a text, one to a line. -/
def text (c : Config) : String :=
  String.join (c.lines.map fun line => line.1 ++ " = " ++ line.2 ++ "\n")

/-- The text of the settings when nothing else is said. -/
def defaultText : String := text {}

end Config

end TransferBoard
