/-!
# Paths

A path is a text in which slashes separate names. Two texts may name the same
place: repeated slashes, a slash at the end and a `.` after the first place do not
count. A leading `.` does count, and `..` is never resolved.

## Main definitions

* `Path` — a path as it was written.
* `Path.components p` — the steps that the path takes.
* `Path.Same p q`, `Path.same p q` — equal steps, as a proposition and as a test.
* `Path.fileName? p` — the last step, when it is a name.
* `Path.child p name` — the place `name` within `p`.
* `Path.parent? p` — the path without its last step, and without what is idle
  there.
* `Path.extend p text` — the path with a text after its last name.
-/

namespace TransferBoard

/-- A path, as it was written. -/
structure Path where
  /-- The text of the path. -/
  text : String
  deriving DecidableEq, Repr, Inhabited

namespace Path

/-- A step of a path. -/
inductive Component where
  /-- To the root: a leading slash. -/
  | root
  /-- Nowhere: a leading `.`. -/
  | here
  /-- One place up: `..`. -/
  | up
  /-- Down to the place with the given name. -/
  | name (s : String)
  deriving DecidableEq, Repr

/-- The pieces between the slashes, empty ones included. -/
def splitSlash : List Char → List (List Char)
  | [] => [[]]
  | c :: cs =>
    if c = '/' then [] :: splitSlash cs
    else
      match splitSlash cs with
      | [] => [[c]]
      | p :: ps => (c :: p) :: ps

/-- The pieces joined with slashes again. -/
def joinSlash : List (List Char) → List Char
  | [] => []
  | [p] => p
  | p :: ps => p ++ '/' :: joinSlash ps

theorem splitSlash_ne_nil : ∀ cs, splitSlash cs ≠ []
  | [] => by simp [splitSlash]
  | c :: cs => by
    unfold splitSlash
    split
    · simp
    · split <;> simp

/-- Joining undoes splitting. -/
theorem joinSlash_splitSlash : ∀ cs, joinSlash (splitSlash cs) = cs
  | [] => rfl
  | c :: cs => by
    have ih := joinSlash_splitSlash cs
    unfold splitSlash
    split
    · next h =>
      cases hs : splitSlash cs with
      | nil => exact absurd hs (splitSlash_ne_nil cs)
      | cons p ps => rw [hs] at ih; simp [joinSlash, ih, h]
    · cases hs : splitSlash cs with
      | nil => exact absurd hs (splitSlash_ne_nil cs)
      | cons p ps =>
        rw [hs] at ih
        cases ps with
        | nil => simpa [joinSlash] using ih
        | cons q qs => simpa [joinSlash] using ih

/-- The path starts at the root. -/
def isAbsolute (p : Path) : Bool := p.text.toList.head? == some '/'

/-- A piece that leads nowhere: an empty one or a dot. -/
def isIdle (piece : List Char) : Bool := piece == [] || piece == ['.']

/-- The step that a piece stands for when it is not idle. -/
def step (piece : List Char) : Component :=
  if piece = ['.', '.'] then .up else .name (String.ofList piece)

/-- The first step of a path whose first piece is given: a slash before it leads
to the root, a dot counts here. -/
def firstStep (piece : List Char) : Component :=
  if piece = [] then .root else if piece = ['.'] then .here else step piece

/-- The steps that the path takes, in order. -/
def components (p : Path) : List Component :=
  if p.text = "" then []
  else
    match splitSlash p.text.toList with
    | [] => []
    | first :: rest => firstStep first :: (rest.filter fun x => !isIdle x).map step

/-- Two paths are the same place when they take the same steps. -/
def Same (p q : Path) : Prop := p.components = q.components

instance (p q : Path) : Decidable (Same p q) := inferInstanceAs (Decidable (_ = _))

/-- The test whether two paths are the same place. -/
def same (p q : Path) : Bool := decide (Same p q)

/-- The name that the path ends in: its last step, if that is a name. -/
def fileName? (p : Path) : Option String :=
  match p.components.getLast? with
  | some (.name s) => some s
  | _ => none

/-- The place with the given name within `p`. A slash is put between, unless
there is one already or `p` is empty. -/
def child (p : Path) (name : String) : Path :=
  if p.text = "" then ⟨name⟩
  else if p.text.toList.getLast? = some '/' then ⟨p.text ++ name⟩
  else ⟨p.text ++ "/" ++ name⟩

/-- The path with a text put after its last character. -/
def extend (p : Path) (text : String) : Path := ⟨p.text ++ text⟩

/-- Drops idle pieces at the head of a reversed list of pieces, but never the
last one left: the first piece of a path always counts. -/
def dropIdle : List (List Char) → List (List Char)
  | [] => []
  | [p] => [p]
  | p :: q :: ps => if isIdle p then dropIdle (q :: ps) else p :: q :: ps

/-- The path without its last step; the root and the empty path have none. -/
def parent? (p : Path) : Option Path :=
  if p.text = "" then none
  else
    match dropIdle (splitSlash p.text.toList).reverse with
    | [] => none
    | [first] => if first = [] then none else some ⟨""⟩
    | _ :: q :: ps =>
      let kept := (dropIdle (q :: ps)).reverse
      if kept = [[]] then some ⟨"/"⟩ else some ⟨String.ofList (joinSlash kept)⟩

end Path

end TransferBoard
