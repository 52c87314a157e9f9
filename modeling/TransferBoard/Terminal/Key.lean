import TransferBoard.Disk.OsError
import TransferBoard.Text.Blank

/-!
# Keys

## Main definitions

* `Key` — a key press, reduced to what the program reacts to.
* `KeyEvent` — what a key source delivers: a key, or a failure to deliver one.
* `readKey events` — waits for the next key; a source that has run dry is closed.
* `keysOfText text` — the keys that type a text.
* `terminalKey c` — the key that a character typed at a terminal arrives as.
-/

namespace TransferBoard

/-- A key press. -/
inductive Key where
  /-- A key with a character on it. -/
  | char (c : Char)
  /-- Cursor up. -/
  | up
  /-- Cursor down. -/
  | down
  /-- Escape. -/
  | esc
  /-- The end of a line. -/
  | enter
  /-- Delete the character before. -/
  | backspace
  /-- Any other key. -/
  | other
  deriving DecidableEq, Repr

/-- What a key source delivers. -/
inductive KeyEvent where
  /-- A key was pressed. -/
  | press (key : Key)
  /-- The source failed to deliver a key, but may go on. -/
  | failure (cause : OsError)
  /-- The source broke down under its reader. -/
  | crash
  deriving DecidableEq, Repr

/-- What a reader is told that a key source broke down under. -/
def brokenSource : OsError := .other "key source broke down"

/-- Waits for the next key. After the last one the source is closed. -/
def readKey : List KeyEvent → Except OsError (Option Key) × List KeyEvent
  | [] => (.ok none, [])
  | .press key :: rest => (.ok (some key), rest)
  | .failure cause :: rest => (.error cause, rest)
  | .crash :: rest => (.error brokenSource, rest)

/-- The key that types a character: line feed is the end of a line and code 27 the
escape key. -/
def keyOfChar (c : Char) : Key :=
  if c = '\n' then .enter else if c = Char.ofNat 27 then .esc else .char c

/-- The keys that type a text. -/
def keysOfText (text : String) : List Key := text.toList.map keyOfChar

/-- The key that a character typed at a terminal arrives as: code 3, which interrupts
elsewhere, as the escape key, and the other control characters as keys that nothing
reacts to. -/
def terminalKey (c : Char) : Key :=
  if c.toNat = 3 then .esc else if isControl c then .other else .char c

end TransferBoard
