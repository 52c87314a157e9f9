import TransferBoard.Text.Blank

/-!
# Grids of characters

What a terminal shows: rows of cells, one character in each. Text that does not
fit is cut off.

## Main definitions

* `Grid width height` — the cells.
* `Grid.put`, `Grid.clear` — write a text into a row, blank out rows.
* `Grid.rowText`, `Grid.rows`, `Grid.contents`, `Grid.findRow` — read the grid
  without the blanks at the ends of rows.

## Main results

* `Grid.cell_put`, `Grid.cell_clear` — what writing and blanking do to each cell.
-/

namespace TransferBoard

/-- The cells of a terminal of the given size. -/
structure Grid (width height : Nat) where
  /-- The rows from the top, each with its cells from the left. -/
  cells : Vector (Vector Char width) height

namespace Grid

variable {width height : Nat}

/-- The empty row. -/
def blankRow (width : Nat) : Vector Char width := Vector.replicate width ' '

/-- The grid with nothing on it. -/
def blank (width height : Nat) : Grid width height := ⟨Vector.replicate height (blankRow width)⟩

/-- A row with a text written over it from a column on; what lies beyond the
right edge is cut off. -/
def overlay (old : Vector Char width) (col : Nat) (text : Array Char) : Vector Char width :=
  Vector.ofFn fun x => if col ≤ x.val then text.getD (x.val - col) old[x] else old[x]

/-- Writes a text into a row from a column on. A row beyond the bottom is none. -/
def put (g : Grid width height) (row col : Nat) (text : String) : Grid width height :=
  if h : row < height then ⟨g.cells.set row (overlay g.cells[row] col text.toList.toArray)⟩ else g

/-- Blanks the rows from `top` up to but without `bottom`. -/
def clear (g : Grid width height) (top bottom : Nat) : Grid width height :=
  ⟨g.cells.mapFinIdx fun r line _ => if top ≤ r ∧ r < bottom then blankRow width else line⟩

/-- The character at a row and a column. -/
def cell (g : Grid width height) (r : Fin height) (x : Fin width) : Char := g.cells[r][x]

/-- Writing changes the cells that the text covers. -/
theorem cell_put (g : Grid width height) (row col : Nat) (text : String)
    (r : Fin height) (x : Fin width) :
    (g.put row col text).cell r x =
      if r.val = row ∧ col ≤ x.val then text.toList.toArray.getD (x.val - col) (g.cell r x)
      else g.cell r x := by
  unfold put cell
  split
  · next h =>
    by_cases hr : r.val = row
    · subst hr
      simp [overlay]
    · have hr' : row ≠ r.val := fun e => hr e.symm
      simp [hr, hr']
  · next h =>
    have hr : r.val ≠ row := fun e => h (e ▸ r.isLt)
    simp [hr]

/-- Blanking empties the rows in the range and no others. -/
theorem cell_clear (g : Grid width height) (top bottom : Nat) (r : Fin height) (x : Fin width) :
    (g.clear top bottom).cell r x =
      if top ≤ r.val ∧ r.val < bottom then ' ' else g.cell r x := by
  simp only [clear, cell, Fin.getElem_fin, Vector.getElem_mapFinIdx]
  split <;> simp [blankRow]

/-! ### Reading -/

/-- The text of a row without the blanks at its end. -/
def lineText (line : Vector Char width) : String := String.ofList (dropBlankEnd line.toList)

/-- The text of the row at a number, which is empty beyond the bottom. -/
def rowText (g : Grid width height) (row : Nat) : String :=
  if h : row < height then lineText g.cells[row] else ""

/-- The texts of all rows from the top. -/
def rows (g : Grid width height) : List String := g.cells.toList.map lineText

/-- The texts of all rows, separated by line feeds. -/
def contents (g : Grid width height) : String := "\n".intercalate g.rows

/-- A text occurs within another one. -/
def occursIn (needle : List Char) : List Char → Bool
  | [] => needle.isEmpty
  | c :: cs => needle.isPrefixOf (c :: cs) || occursIn needle cs

/-- The first row in which a text occurs. -/
def findRow (g : Grid width height) (needle : String) : Option Nat :=
  g.rows.findIdx? fun line => occursIn needle.toList line.toList

end Grid

end TransferBoard
