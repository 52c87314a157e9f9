import TransferBoard.Proofs.Board.Bytes
import TransferBoard.Proofs.Screen.Cells

/-!
# A frame covers the whole screen

Header, footer and body each blank their rows before they are drawn.  On a low screen these rows
overlap or there are none, but every row is one of them.  So nothing that was on the screen before
is left of it, whatever the size of the screen; and as the state is fitted to the screen at the
first time, a second frame is the first one again.

## Main results

* `Frame.exists_blanks` — every row of the screen is blanked at some time.
* `Surface.picture_present` — what is drawn over does not matter.
* `render_repaints` — the whole screen is repainted, and once is enough.
-/

namespace TransferBoard

/-- **Every row of the screen is blanked** at some time while a frame is drawn. -/
theorem Frame.exists_blanks (s : BoardState) (now : Moment) {width height row : Nat}
    (hrow : row < height) : ∃ call ∈ calls s width height now, call.blanks row = true := by
  by_cases hheader : row < headerRows
  · have hblanks : (DrawCall.clear 0 headerRows).blanks row = true := by
      simp [DrawCall.blanks, hheader]
    refine ⟨_, ?_, hblanks⟩
    simp [calls, header]
  · have hlow : headerRows ≤ row := Nat.not_lt.mp hheader
    by_cases hbody : row < height - footerRows
    · have hblanks : (DrawCall.clear headerRows (height - footerRows)).blanks row = true := by
        simp [DrawCall.blanks, hlow, hbody]
      refine ⟨_, ?_, hblanks⟩
      simp [calls, body]
    · -- the row is below the header, so that there is room for the footer
      have hroom : ¬ height < footerRows := by unfold headerRows footerRows at *; omega
      have hblanks : (DrawCall.clear (height - footerRows) height).blanks row = true := by
        simp [DrawCall.blanks, hrow, Nat.not_lt.mp hbody]
      refine ⟨_, ?_, hblanks⟩
      simp [calls, footer, hroom]

/-- What is drawn over does not matter. -/
theorem Surface.picture_present {a b : Surface} (hwidth : a.width = b.width)
    (hheight : a.height = b.height) {calls : List DrawCall}
    (hblanked : ∀ row < a.height, ∃ call ∈ calls, call.blanks row = true) :
    (a.present calls).2.picture = (b.present calls).2.picture := by
  obtain ⟨hwidthA, hheightA⟩ := a.size_present calls
  obtain ⟨hwidthB, hheightB⟩ := b.size_present calls
  refine picture_eq (by rw [hwidthA, hwidthB, hwidth]) (by rw [hheightA, hheightB, hheight]) ?_
  intro row col hrow hcol
  rw [hheightA] at hrow
  rw [hwidthA] at hcol
  obtain ⟨c, hc⟩ := a.cell?_isSome hrow hcol
  obtain ⟨c', hc'⟩ := b.cell?_isSome (hheight ▸ hrow) (hwidth ▸ hcol)
  rw [cell?_present, cell?_present, hc, hc', Option.map_some, Option.map_some,
    DrawCall.foldl_onCell_of_blanked (hblanked row hrow)]

namespace BoardState

/-- The picture is that of the state as it is fitted to the size of the surface. -/
theorem picture_render {s s' : BoardState} {a b : Surface} (hwidth : a.width = b.width)
    (hheight : a.height = b.height)
    (hfitted : s.fitTo (visibleCapacity a.height) = s'.fitTo (visibleCapacity a.height))
    (now : Moment) :
    (s.render a now).2.2.picture = (s'.render b now).2.2.picture := by
  rw [render_surface, render_surface, ← hwidth, ← hheight, hfitted]
  exact Surface.picture_present hwidth hheight fun row hrow => Frame.exists_blanks _ now hrow

/-- **The whole screen is repainted, and once is enough.**  Whatever is on two surfaces of one
size, of any size at all, a frame of a state looks the same on both and leaves the same state;
and another frame at the same time changes neither what is on the surface nor the state. -/
theorem render_repaints (s : BoardState) {a b : Surface} (hwidth : a.width = b.width)
    (hheight : a.height = b.height) (now : Moment) :
    (s.render a now).1 = (s.render b now).1 ∧
    (s.render a now).2.2.picture = (s.render b now).2.2.picture ∧
    let drawn := (s.render a now).2.2
    let fitted := (s.render a now).1
    (fitted.render drawn now).1 = fitted ∧
      (fitted.render drawn now).2.2.picture = drawn.picture := by
  obtain ⟨hwidthA, hheightA⟩ := a.size_present (Frame.calls
    (s.fitTo (visibleCapacity a.height)) a.width a.height now)
  have hfixed : (s.fitTo (visibleCapacity a.height)).fitTo (visibleCapacity a.height) =
      s.fitTo (visibleCapacity a.height) := fitTo_fitTo s _
  refine ⟨by rw [render_fst, render_fst, hheight], picture_render hwidth hheight rfl now, ?_, ?_⟩
  · rw [render_fst, render_surface, hheightA]
    exact hfixed
  · exact (picture_render hwidthA.symm hheightA.symm hfixed.symm now).symm

/-- A screen of four rows, on which header and footer overlap: a frame looks the same whether or
not there was a prompt on it. -/
theorem low_screen_is_repainted :
    let s := BoardState.run {} [.allocate "a" 0 4 0, .key .down]
    let blank := Surface.new 8 4
    let prompted := (blank.put 3 0 "verify? " .plain).put 2 0 "checksum" .plain
    prompted.width = blank.width ∧ prompted.height = blank.height ∧
      prompted.picture ≠ blank.picture ∧
      (s.render prompted 1).1 = (s.render blank 1).1 ∧
      (s.render prompted 1).2.2.picture = (s.render blank 1).2.2.picture := by
  intro s blank prompted
  have hdiffer : prompted.picture ≠ blank.picture := fun heq =>
    absurd (congrArg (fun p => p.2.2.cells.toList.map Vector.toList) heq) (by decide)
  obtain ⟨hstate, hpicture, -⟩ :=
    render_repaints s (a := prompted) (b := blank) rfl rfl 1
  exact ⟨rfl, rfl, hdiffer, hstate, hpicture⟩

end BoardState
end TransferBoard
