import TransferBoard.Text.Blank

/-!
# The list of sources

The sources of a batch, in the order they were entered: at most ten, none blank.

## Main definitions

* `SourceList` — the list, with what is known of its items.
* `SourceList.push`, `pop`, `ofItems` — the changes to it.
-/

namespace TransferBoard

/-- The most sources in a batch. -/
def maxSources : Nat := 10

/-- The sources of a batch. -/
structure SourceList where
  /-- The sources, in the order they were entered. -/
  items : List String := []
  /-- There are at most ten. -/
  length_le : items.length ≤ maxSources := by decide

namespace SourceList

/-- No more fit in. -/
def isFull (l : SourceList) : Bool := maxSources ≤ l.items.length

/-- Adds a source, trimmed, unless it is blank or the list is full. Tells whether it
was added. -/
def push (l : SourceList) (item : String) : Bool × SourceList :=
  match nonBlank? item with
  | none => (false, l)
  | some t =>
    if h : l.items.length < maxSources then
      (true, ⟨l.items ++ [t], by rw [List.length_append, List.length_singleton]; omega⟩)
    else (false, l)

/-- Removes the last source. -/
def pop (l : SourceList) : Option String × SourceList :=
  (l.items.getLast?, ⟨l.items.dropLast, by
    have := l.length_le
    rw [List.length_dropLast]; omega⟩)

/-- The list of the first ten items that are not blank. -/
def ofItems (items : List String) : SourceList :=
  items.foldl (fun l item => (l.push item).2) {}

end SourceList

end TransferBoard
