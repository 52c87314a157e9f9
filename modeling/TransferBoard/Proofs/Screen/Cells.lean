import TransferBoard.Proofs.Board.Frames

/-!
# What is in a cell

Each call on a surface changes a cell in a way that depends on what was in this cell alone.  So
what a list of calls leaves in a cell is found by following them through that cell, and only the
calls on its row matter.

## Main definitions

* `overwrite col text x c` — the character in column `x`, where `c` was, after a text has been
  written from column `col` on.
* `DrawCall.touches row` — a call changes cells of a row.
* `DrawCall.onCell row col` — what a call does to a cell.
* `Surface.cell?` — the character at a row and a column of a surface.
* `Surface.picture` — the size of a surface, and what has been drawn on it.

## Main results

* `cell?_present` — what is in a cell after a list of calls has been shown.
* `foldl_onCell_filter` — only the calls on the row of a cell matter to it.
* `foldl_onCell_of_blanked` — once its row has been blanked, what was in a cell before does not
  matter.
* `picture_eq` — surfaces of one size with the same cells show the same picture.
* `cell?_render` — what a frame leaves in a cell.
-/

namespace TransferBoard

/-- The character in column `x`, where `c` was, after a text has been written from column `col`
on. -/
def overwrite (col : Nat) (text : String) (x : Nat) (c : Char) : Char :=
  if col ≤ x then text.toList.getD (x - col) c else c

namespace DrawCall

/-- The call changes cells of a row. -/
def touches (row : Nat) : DrawCall → Bool
  | put r _ _ _ => row == r
  | clear top bottom => decide (top ≤ row) && decide (row < bottom)
  | _ => false

/-- What a call does to a cell. -/
def onCell (row col : Nat) (c : Char) : DrawCall → Char
  | put r x text _ => if row = r then overwrite x text col c else c
  | clear top bottom => if top ≤ row ∧ row < bottom then ' ' else c
  | _ => c

theorem put_untouched {row r : Nat} (h : row ≠ r) (col : Nat) (text : String) (tone : Tone) :
    (put r col text tone).touches row = false :=
  beq_eq_false_iff_ne.mpr h

theorem clear_untouched {row top bottom : Nat} (h : row < top ∨ bottom ≤ row) :
    (clear top bottom).touches row = false := by
  rw [touches, ← Bool.decide_and, decide_eq_false_iff_not]
  omega

theorem onCell_of_not_touches {row : Nat} {call : DrawCall} (h : call.touches row = false)
    (col : Nat) (c : Char) : call.onCell row col c = c := by
  cases call with
  | put r x text tone => exact if_neg (by simpa [touches] using h)
  | clear top bottom =>
    refine if_neg ?_
    rintro ⟨htop, hbottom⟩
    simp [touches, htop, hbottom] at h
  | _ => rfl

/-- Only the calls on the row of a cell matter to it. -/
theorem foldl_onCell_filter (row col : Nat) (c : Char) (calls : List DrawCall) :
    (calls.filter (touches row)).foldl (onCell row col) c = calls.foldl (onCell row col) c := by
  rw [List.foldl_filter]
  refine congrArg (fun f => calls.foldl f c) (funext fun c => funext fun call => ?_)
  split
  · rfl
  · next h => exact (onCell_of_not_touches (eq_false_of_ne_true h) col c).symm

theorem foldl_onCell_of_untouched {row : Nat} {calls : List DrawCall}
    (h : ∀ call ∈ calls, call.touches row = false) (col : Nat) (c : Char) :
    calls.foldl (onCell row col) c = c := by
  have hnone : calls.filter (touches row) = [] :=
    List.filter_eq_nil_iff.mpr fun call hcall => by simp [h call hcall]
  rw [← foldl_onCell_filter, hnone]
  rfl

theorem cell_onGrid {width height : Nat} (g : Grid width height) (call : DrawCall)
    (r : Fin height) (x : Fin width) :
    (call.onGrid g).cell r x = call.onCell r x (g.cell r x) := by
  cases call with
  | put row col text tone =>
    rw [onGrid, onCell, Grid.cell_put, overwrite]
    by_cases hrow : r.val = row <;> simp [hrow]
  | clear top bottom => exact Grid.cell_clear g top bottom r x
  | _ => rfl

/-- The call blanks a row. -/
def blanks (row : Nat) : DrawCall → Bool
  | clear top bottom => decide (top ≤ row) && decide (row < bottom)
  | _ => false

theorem onCell_of_blanks {row : Nat} {call : DrawCall} (h : call.blanks row = true)
    (col : Nat) (c : Char) : call.onCell row col c = ' ' := by
  cases call with
  | clear top bottom => exact if_pos (by simpa [blanks] using h)
  | _ => exact absurd h (by simp [blanks])

/-- Once its row has been blanked, what was in a cell before does not matter. -/
theorem foldl_onCell_of_blanked {row : Nat} {calls : List DrawCall}
    (h : ∃ call ∈ calls, call.blanks row = true) (col : Nat) (c c' : Char) :
    calls.foldl (onCell row col) c = calls.foldl (onCell row col) c' := by
  obtain ⟨call, hmem, hblanks⟩ := h
  obtain ⟨before, after, rfl⟩ := List.append_of_mem hmem
  rw [List.foldl_append, List.foldl_append, List.foldl_cons, List.foldl_cons,
    onCell_of_blanks hblanks, onCell_of_blanks hblanks]

end DrawCall

namespace Surface

/-- The character at a row and a column, if there is a cell. -/
def cell? (s : Surface) (row col : Nat) : Option Char :=
  if h : row < s.height ∧ col < s.width then some (s.grid.cell ⟨row, h.1⟩ ⟨col, h.2⟩) else none

/-- The size of a surface, and what has been drawn on it. -/
def picture (s : Surface) : (width : Nat) × (height : Nat) × Grid width height :=
  ⟨s.width, s.height, s.grid⟩

theorem cell?_draw (s : Surface) (call : DrawCall) (row col : Nat) :
    (s.draw call).cell? row col = (s.cell? row col).map fun c => call.onCell row col c := by
  unfold cell? draw
  split
  · exact congrArg some (DrawCall.cell_onGrid s.grid call _ _)
  · rfl

theorem cell?_drawAll (calls : List DrawCall) (row col : Nat) :
    ∀ s : Surface, (s.drawAll calls).cell? row col =
      (s.cell? row col).map fun c => calls.foldl (DrawCall.onCell row col) c := by
  induction calls with
  | nil => intro s; exact Option.map_id.symm ▸ rfl
  | cons call calls ih =>
    intro s
    show ((s.draw call).drawAll calls).cell? row col = _
    rw [ih, cell?_draw, Option.map_map]
    rfl

/-- **What is in a cell after a list of calls has been shown**, whether showing it works or
not. -/
theorem cell?_present (s : Surface) (calls : List DrawCall) (row col : Nat) :
    (s.present calls).2.cell? row col =
      (s.cell? row col).map fun c => calls.foldl (DrawCall.onCell row col) c := by
  rw [← cell?_drawAll, present, flush]
  split <;> rfl

theorem cell?_isSome (s : Surface) {row col : Nat} (hrow : row < s.height) (hcol : col < s.width) :
    ∃ c, s.cell? row col = some c :=
  ⟨_, dif_pos ⟨hrow, hcol⟩⟩

/-- Surfaces of one size with the same cells show the same picture. -/
theorem picture_eq {a b : Surface} (hwidth : a.width = b.width) (hheight : a.height = b.height)
    (hcells : ∀ row col, row < a.height → col < a.width → a.cell? row col = b.cell? row col) :
    a.picture = b.picture := by
  obtain ⟨width, height, ⟨cells⟩⟩ := a
  obtain ⟨width', height', ⟨cells'⟩⟩ := b
  obtain rfl : width = width' := hwidth
  obtain rfl : height = height' := hheight
  suffices hsame : cells = cells' by subst hsame; rfl
  refine Vector.ext fun row hrow => Vector.ext fun col hcol => ?_
  have hcell := hcells row col hrow hcol
  simp only [cell?, dif_pos (And.intro hrow hcol)] at hcell
  exact Option.some.inj hcell

end Surface

namespace BoardState

theorem render_fst (s : BoardState) (surface : Surface) (now : Moment) :
    (s.render surface now).1 = s.fitTo (visibleCapacity surface.height) := rfl

theorem render_surface (s : BoardState) (surface : Surface) (now : Moment) :
    (s.render surface now).2.2 = (surface.present (Frame.calls
      (s.fitTo (visibleCapacity surface.height)) surface.width surface.height now)).2 := rfl

/-- A frame leaves the surface as large as it was. -/
theorem size_render (s : BoardState) (surface : Surface) (now : Moment) :
    (s.render surface now).2.2.width = surface.width ∧
      (s.render surface now).2.2.height = surface.height :=
  surface.size_present _

/-- What a frame leaves in a cell. -/
theorem cell?_render (s : BoardState) (surface : Surface) (now : Moment) (row col : Nat) :
    (s.render surface now).2.2.cell? row col = (surface.cell? row col).map fun c =>
      (Frame.calls (s.fitTo (visibleCapacity surface.height)) surface.width surface.height
        now).foldl (DrawCall.onCell row col) c := by
  rw [render_surface, Surface.cell?_present]

end BoardState
end TransferBoard
