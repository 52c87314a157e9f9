import TransferBoard.Toml.Value

/-!
# Settings files

A settings file is a sequence of lines. A line gives a value to a key, or is a header: what
follows belongs to the table, or to one more table of the list of tables, that the header
names.

## Main definitions

* `Toml.Line`, `Toml.lines` — the lines of a file.
* `Toml.Assembly` — the tables so far, and the one that is being filled.
* `Toml.Assembly.add` — one more line.
* `Toml.ofText?` — the entries of a whole file; nothing if it has a fault.
-/

namespace TransferBoard

namespace Toml

/-! ### Lines -/

/-- What a line says. -/
inductive Line where
  /-- A key has a value. -/
  | assign (path : List String) (value : Toml)
  /-- A table follows. -/
  | header (path : List String)
  /-- One more table of a list follows. -/
  | listHeader (path : List String)

/-- Takes the key of a header and its closing brackets. -/
def headerKey (brackets : Nat) : Reader (List String) := fun cs => do
  let (path, cs) ← key cs
  if cs.take brackets = List.replicate brackets ']' then some (path, cs.drop brackets) else none

/-- Takes what a line says; the line ends after it. -/
def line : Reader Line := fun cs => do
  let (said, cs) ← (match cs with
    | '[' :: '[' :: rest => (headerKey 2 rest).map fun p => (Line.listHeader p.1, p.2)
    | '[' :: rest => (headerKey 1 rest).map fun p => (Line.header p.1, p.2)
    | cs => (keyAndValue value cs).map fun p => (Line.assign p.1.1 p.1.2, p.2))
  let cs ← lineEnd cs
  some (said, cs)

/-- What the lines of a file say. Blank lines and comments say nothing. The number bounds
the lines. -/
def lines : Nat → List Char → Option (List Line)
  | 0, _ => none
  | n + 1, cs =>
    match skipSpace cs with
    | [] => some []
    | c :: rest =>
      if c == '#' then (lineEnd (c :: rest)).bind (lines n)
      else
        match lineBreak? (c :: rest) with
        | some after => lines n after
        | none => do
          let (said, after) ← line (c :: rest)
          let others ← lines n after
          some (said :: others)

/-! ### Tables -/

/-- Changes the table at the end of a path of tables. Tables that are missing on the way
are implied; of a list of tables the last one is meant. -/
def changeAt (f : TomlEntries → Option TomlEntries) : List String → TomlEntries → Option TomlEntries
  | [], entries => f entries
  | key :: rest, entries =>
    match entries.find? key with
    | none => (changeAt f rest []).map fun inner => entries.set key (.table .implied inner)
    | some (.table origin inner) =>
      (changeAt f rest inner).map fun inner => entries.set key (.table origin inner)
    | some (.tables earlier last) =>
      (changeAt f rest last).map fun last => entries.set key (.tables earlier last)
    | some _ => none

/-- The entries of the table at the end of a path of tables; none where tables are
missing. -/
def entriesAt : List String → TomlEntries → Option TomlEntries
  | [], entries => some entries
  | key :: rest, entries =>
    match entries.find? key with
    | none => some []
    | some (.table _ inner) => entriesAt rest inner
    | some (.tables _ last) => entriesAt rest last
    | some _ => none

/-- The tables so far, and the one that is being filled. -/
structure Assembly where
  /-- The tables that are complete. -/
  root : TomlEntries := []
  /-- The path of tables that leads to the one being filled. -/
  parent : List String := []
  /-- The key of the table being filled; none for the one of the whole file. -/
  key : Option String := none
  /-- It is one of a list of tables. -/
  listed : Bool := false
  /-- What is in it. -/
  entries : TomlEntries := []

namespace Assembly

/-- Puts the table that was filled under its key. -/
def place (a : Assembly) (key : String) (siblings : TomlEntries) : Option TomlEntries :=
  match siblings.find? key, a.listed with
  | none, false => some (siblings.set key (.table .declared a.entries))
  | some (.table .implied _), false => some (siblings.set key (.table .declared a.entries))
  | none, true => some (siblings.set key (.tables [] a.entries))
  | some (.tables earlier last), true =>
    some (siblings.set key (.tables (earlier ++ [last]) a.entries))
  | _, _ => none

/-- All tables, with the one that was filled among them. -/
def complete (a : Assembly) : Option TomlEntries :=
  match a.key with
  | none => some a.entries
  | some key => changeAt (a.place key) a.parent a.root

/-- What a table has in it when its header comes: what headers below it have implied. A
table that was declared, or made otherwise, cannot be declared again. -/
def declare? (key : String) (siblings : TomlEntries) : Option TomlEntries :=
  match siblings.find? key with
  | none => some []
  | some (.table .implied inner) => some inner
  | some _ => none

/-- What one more table of a list has in it. Under the key there must be no more than a
list of tables. -/
def enlist? (key : String) (siblings : TomlEntries) : Option TomlEntries :=
  match siblings.find? key with
  | none => some []
  | some (.tables _ _) => some []
  | some _ => none

/-- Starts the table that a header names. -/
def start (a : Assembly) (listed : Bool) (path : List String) : Option Assembly := do
  let root ← a.complete
  let key ← path.getLast?
  let siblings ← entriesAt path.dropLast root
  let entries ← if listed then enlist? key siblings else declare? key siblings
  some {
    root := root
    parent := path.dropLast
    key := some key
    listed := listed
    entries := entries }

/-- One more line. -/
def add (a : Assembly) : Line → Option Assembly
  | .assign path value => (a.entries.insertAt true path value).map fun e => { a with entries := e }
  | .header path => a.start false path
  | .listHeader path => a.start true path

end Assembly

/-- Drops the mark that may stand at the very start of a text. -/
def dropMark : List Char → List Char
  | c :: rest => if c.toNat = 0xFEFF then rest else c :: rest
  | [] => []

/-- The entries of a settings file; nothing if it has a fault. -/
def ofText? (text : String) : Option TomlEntries := do
  let cs := dropMark text.toList
  let said ← lines (cs.length + 1) cs
  let a ← said.foldlM Assembly.add {}
  a.complete

end Toml

end TransferBoard
