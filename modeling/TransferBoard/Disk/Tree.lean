import TransferBoard.Digest.Hex
import TransferBoard.Disk.OsError
import TransferBoard.Disk.Path

/-!
# The file tree

The files and directories below a working directory, as a finite map from places
to contents. There are no links, so a place is the list of names that leads to it.

## Main definitions

* `Place`, `Node`, `Disk` — where things are, what they are, and all of them.
* `Disk.nodeAt d p` — what is at a place.
* `Disk.resolve d path` — the place that a path leads to, walking piece by piece.
* `Disk.openRead`, `Disk.createFile`, `Disk.readAt`, `Disk.append`,
  `Disk.removeFile`, `Disk.renameFile`, `Disk.makeDir`, `Disk.makeDirs`,
  `Disk.writeFile` — the file operations, each one step.
* `Disk.listing d` — the files and directories, sorted by path.

## Main results

* `Disk.nodeAt_put`, `Disk.nodeAt_erase` — what a change of one place does to the map.
-/

namespace TransferBoard

/-- The names on the way from the working directory. The name `/` in front stands
for the root, which lies outside. -/
abbrev Place := List String

/-- What can be at a place. -/
inductive Node where
  /-- A directory. -/
  | dir
  /-- A file with its contents. -/
  | file (contents : Bytes)
  /-- A stream of unknown length, with what has arrived on it: nothing yet, or
  everything up to its end. -/
  | stream (arrived : Option Bytes)
  deriving DecidableEq

namespace Node

/-- The size that a directory reports. -/
def dirSize : Nat := 4096

/-- The size reported for what is at a place. -/
def size : Node → Nat
  | dir => dirSize
  | file contents => contents.size
  | stream _ => 0

end Node

/-- The place of the root directory. -/
def Place.root : Place := ["/"]

/-- The place one step up; the root has none above it. -/
def Place.up (p : Place) : Place :=
  if p = [] ∨ p = Place.root then Place.root else p.dropLast

/-- A place that is not one of the two fixed directories. -/
def Place.Free (p : Place) : Prop := p ≠ [] ∧ p ≠ Place.root

/-- The files and directories below the working directory. -/
structure Disk where
  /-- The places in use with what is there. -/
  entries : List (Place × Node) := []

namespace Disk

/-- What is listed for a place. -/
def find? (entries : List (Place × Node)) (p : Place) : Option Node :=
  match entries with
  | [] => none
  | (q, n) :: rest => if q = p then some n else find? rest p

/-- What is at a place. The working directory and the root are always there. -/
def nodeAt (d : Disk) (p : Place) : Option Node :=
  if p = [] ∨ p = Place.root then some .dir else find? d.entries p

/-- The disk with a node put at a place, over what was there. -/
def put (d : Disk) (p : Place) (n : Node) : Disk :=
  ⟨(p, n) :: d.entries.filter fun e => !(e.1 == p)⟩

/-- The disk with nothing at a place. -/
def erase (d : Disk) (p : Place) : Disk :=
  ⟨d.entries.filter fun e => !(e.1 == p)⟩

theorem find?_filter (entries : List (Place × Node)) (p q : Place) :
    find? (entries.filter fun e => !(e.1 == p)) q = if q = p then none else find? entries q := by
  induction entries with
  | nil => simp [find?]
  | cons e rest ih =>
    obtain ⟨r, n⟩ := e
    by_cases hr : r = p
    · subst hr
      by_cases hq : q = r
      · subst hq
        simpa using ih
      · have : r ≠ q := fun h => hq h.symm
        simp [ih, hq, find?, this]
    · by_cases hq : r = q
      · subst hq
        simp [find?, hr]
      · simp [find?, hr, hq, ih]

/-- Putting a node changes one place. -/
theorem nodeAt_put (d : Disk) {p : Place} (hp : Place.Free p) (n : Node) (q : Place) :
    (d.put p n).nodeAt q = if q = p then some n else d.nodeAt q := by
  by_cases hq : q = p
  · subst hq
    simp [nodeAt, put, hp.1, hp.2, find?]
  · have hpq : ¬ p = q := fun h => hq h.symm
    simp [nodeAt, put, find?, hpq, hq, find?_filter]

/-- Erasing a node changes one place. -/
theorem nodeAt_erase (d : Disk) {p : Place} (hp : Place.Free p) (q : Place) :
    (d.erase p).nodeAt q = if q = p then none else d.nodeAt q := by
  by_cases hq : q = p
  · subst hq
    simp [nodeAt, erase, hp.1, hp.2, find?_filter]
  · simp [nodeAt, erase, hq, find?_filter]

/-! ### From a path to a place -/

/-- The most bytes that a name may have. -/
def nameLimit : Nat := 255

/-- The most bytes that a path may have. -/
def pathLimit : Nat := 4095

/-- Walks from a place along pieces of a path. Each piece is looked up in a
directory; the last one may lead to a place where nothing is yet. -/
def walk (d : Disk) (here : Place) : List (List Char) → Except OsError Place
  | [] => .ok here
  | piece :: rest =>
    if piece = [] then walk d here rest
    else
      match d.nodeAt here with
      | none => .error .notFound
      | some (.file _) => .error .notDirectory
      | some (.stream _) => .error .notDirectory
      | some .dir =>
        if piece = ['.'] then walk d here rest
        else if piece = ['.', '.'] then walk d (Place.up here) rest
        else
          let name := String.ofList piece
          if nameLimit < name.utf8ByteSize then .error .nameTooLong
          else walk d (here ++ [name]) rest

/-- The path ends in a slash, so that only a directory will do. -/
def endsInSlash (p : Path) : Bool := p.text.toList.getLast? == some '/'

/-- The place that a path leads to. -/
def resolve (d : Disk) (p : Path) : Except OsError Place :=
  if p.text.toList.contains (Char.ofNat 0) then .error .nulInName
  else if p.text = "" then .error .notFound
  else if pathLimit < p.text.utf8ByteSize then .error .nameTooLong
  else walk d (if p.isAbsolute then Place.root else []) (Path.splitSlash p.text.toList)

/-- The place that a path leads to, with what is there. -/
def locate (d : Disk) (p : Path) : Except OsError (Place × Node) := do
  let place ← d.resolve p
  match d.nodeAt place with
  | none => .error .notFound
  | some .dir => .ok (place, .dir)
  | some node => if endsInSlash p then .error .notDirectory else .ok (place, node)

/-! ### File operations -/

/-- Something is there. -/
def pathExists (d : Disk) (p : Path) : Bool :=
  match d.locate p with
  | .ok _ => true
  | .error _ => false

/-- A directory is there. -/
def isDir (d : Disk) (p : Path) : Bool :=
  match d.locate p with
  | .ok (_, .dir) => true
  | _ => false

/-- Opens what is at a path for reading. Directories can be opened. -/
def openRead (d : Disk) (p : Path) : Except OsError (Place × Node) := d.locate p

/-- Reading at a place has to wait for something to arrive. -/
def isWaiting (d : Disk) (p : Place) : Bool := d.nodeAt p == some (.stream none)

/-- Up to `count` bytes of what is at a place, from an offset on. A directory cannot
be read, and a file that has gone has nothing to read. -/
def readAt (d : Disk) (p : Place) (offset count : Nat) : Except OsError Bytes :=
  match d.nodeAt p with
  | some .dir => .error .isDirectory
  | some (.file contents) => .ok (contents.extract offset (offset + count))
  | some (.stream (some arrived)) => .ok (arrived.extract offset (offset + count))
  | some (.stream none) => .ok #[]
  | none => .ok #[]

/-- Makes an empty file at a path, or empties the one that is there. -/
def createFile (d : Disk) (p : Path) : Except OsError (Place × Disk) := do
  let place ← d.resolve p
  if endsInSlash p then .error .isDirectory
  else
    match d.nodeAt place with
    | some .dir => .error .isDirectory
    | _ => .ok (place, d.put place (.file #[]))

/-- Writes a piece after the contents of the file at a place. -/
def append (d : Disk) (p : Place) (piece : Bytes) : Disk :=
  match d.nodeAt p with
  | some (.file contents) => d.put p (.file (contents ++ piece))
  | _ => d

/-- Removes the file at a path. -/
def removeFile (d : Disk) (p : Path) : Except OsError Disk := do
  match ← d.locate p with
  | (_, .dir) => .error .isDirectory
  | (place, _) => .ok (d.erase place)

/-- Gives the file at one path the other path, over the file that was there. -/
def renameFile (d : Disk) (source target : Path) : Except OsError Disk := do
  match ← d.locate source with
  | (_, .dir) => .error .isDirectory
  | (place, node) =>
    let goal ← d.resolve target
    match d.nodeAt goal with
    | some .dir => .error .isDirectory
    | _ => .ok (if goal = place then d else (d.erase place).put goal node)

/-- Makes a directory. -/
def makeDir (d : Disk) (p : Path) : Except OsError Disk := do
  let place ← d.resolve p
  match d.nodeAt place with
  | some _ => .error .alreadyExists
  | none => .ok (d.put place .dir)

/-- What `makeDir` leaves of a path when a directory there is just as good. -/
def makeDirIfMissing (d : Disk) (p : Path) : Except OsError Disk :=
  match d.makeDir p with
  | .ok d' => .ok d'
  | .error e => if d.isDir p then .ok d else .error e

/-- Makes a directory with all that lead to it, the given number of steps up at most.
Those that were made stay when the last one cannot be. -/
def makeDirsWithin : Nat → Disk → Path → Except OsError Unit × Disk
  | 0, d, _ => (.error .noTree, d)
  | steps + 1, d, p =>
    if p.text = "" then (.ok (), d)
    else
      match d.makeDir p with
      | .ok d' => (.ok (), d')
      | .error .notFound =>
        match p.parent? with
        | none => (.error .noTree, d)
        | some parent =>
          match makeDirsWithin steps d parent with
          | (.error e, d') => (.error e, d')
          | (.ok (), d') =>
            match d'.makeDirIfMissing p with
            | .ok d'' => (.ok (), d'')
            | .error e => (.error e, d')
      | .error e => (if d.isDir p then .ok () else .error e, d)

/-- Makes a directory with all that lead to it. What is a directory already may stay;
each step up drops a piece of the path, so its length bounds the steps. -/
def makeDirs (d : Disk) (p : Path) : Except OsError Unit × Disk :=
  makeDirsWithin (p.text.length + 2) d p

/-- Writes a whole file. -/
def writeFile (d : Disk) (p : Path) (contents : Bytes) : Except OsError Disk := do
  let (place, d') ← d.createFile p
  .ok (d'.put place (.file contents))

/-- What arrives on a stream that nothing has arrived on; nothing is added to another
node. -/
def receive (data : Bytes) : Node → Node
  | .stream none => .stream (some data)
  | node => node

/-- Delivers the same bytes on every stream that nothing has arrived on. -/
def deliver (d : Disk) (data : Bytes) : Disk :=
  ⟨d.entries.map fun e => (e.1, receive data e.2)⟩

/-! ### Listing -/

/-- What a listing tells of: a directory, or a file with its contents. -/
inductive Listed where
  /-- A directory. -/
  | dir
  /-- A file with its contents. -/
  | file (contents : Bytes)
  deriving DecidableEq

/-- The text of a place as a path from the working directory. -/
def placeText (p : Place) : String := "/".intercalate p

/-- What a listing says of a node; nothing of a stream. -/
def listed? : Node → Option Listed
  | .dir => some .dir
  | .file contents => some (.file contents)
  | .stream _ => none

/-- The place lies outside the working directory. -/
def isOutside (p : Place) : Bool := p.head? == some "/"

/-- The files and directories below the working directory, sorted by path. -/
def listing (d : Disk) : List (String × Listed) :=
  let below := d.entries.filter fun e => !isOutside e.1
  (below.filterMap fun e => (listed? e.2).map fun l => (placeText e.1, l)).mergeSort
    fun a b => !(b.1 < a.1)

end Disk

end TransferBoard
