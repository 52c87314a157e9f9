import TransferBoard.Proofs.Board.FreeSlots
import TransferBoard.Proofs.Screen.Rows

/-!
# Header and footer

On a screen that has room for both, the header stays whatever is drawn below it.  The footer stays
where a block fits in between, that is from nine rows on.  On a lower screen one entry is shown
all the same, and its block reaches into the footer, which has been drawn before: a row of the
footer stays only when the line that falls on it is not to be seen there, because there is none,
it is cut off, or it reads the same.

## Main definitions

* `Spares width col text line` — a line that is written over a row makes no difference to the text
  on it.
* `Frame.footerLine? s k` — the line of a block that falls on row `k` of the footer.

## Main results

* `lineAt?_footer` — the lines that fall on the footer.
* `rowShows_footerRule_iff`, `rowShows_legend_iff`, `rowShows_footer` — when a row of the footer
  stays.
* `header_stays_and_footer_unless_written_over` — both together.
-/

namespace TransferBoard

/-- A line that is written from the margin on over a row that shows a text makes no difference
within the width. -/
def Spares (width col : Nat) (text line : String) : Prop :=
  ∀ x < width, overwrite margin line x (overwrite col text x ' ') = overwrite col text x ' '

namespace Frame

variable {s : BoardState} {width height : Nat} {now : Moment}

/-- The line of a block that falls on row `k` of the footer: from nine rows on there is none, and
on a lower screen it belongs to the first entry that is shown. -/
def footerLine? (s : BoardState) (width height : Nat) (now : Moment) (k : Nat) : Option String :=
  if 9 ≤ height then none
  else (visible s).head?.bind fun e => (lines e width now)[height - 5 + k]?

theorem footerLine?_eq_none (h : 9 ≤ height ∨ s.entryCount = 0) (k : Nat) :
    footerLine? s width height now k = none := by
  unfold footerLine?
  split
  · rfl
  · next hlow =>
    have hentries : s.entries = [] := List.length_eq_zero_iff.mp (h.resolve_left hlow)
    rw [visible, hentries, List.drop_nil, List.take_nil]
    rfl

/-- The lines that fall on the footer, when the number of entries that fit has been taken over. -/
theorem lineAt?_footer (hheight : 5 ≤ height)
    (hcap : s.controls.visibleCapacity = visibleCapacity height) {k : Nat} (hk : k < 2) :
    lineAt? s width now (height - 2 + k) = footerLine? s width height now k := by
  have hlength : (visible s).length ≤ visibleCapacity height := by
    rw [visible, List.length_take, hcap]
    exact Nat.min_le_left _ _
  unfold visibleCapacity headerRows footerRows rowsPerEntry at hlength
  unfold footerLine?
  split
  · exact lineAt?_eq_none (by unfold headerRows rowsPerEntry; omega)
  · next hlow =>
    by_cases hline : height - 5 + k < rowsPerEntry
    · have hrow : headerRows + rowsPerEntry * 0 + (height - 5 + k) = height - 2 + k := by
        unfold headerRows
        omega
      rw [← hrow, lineAt?_add s width now 0 hline, List.head?_eq_getElem?]
    · -- the second row of the footer may be below the only block there is
      have hnone : lineAt? s width now (height - 2 + k) = none :=
        lineAt?_eq_none (by unfold headerRows rowsPerEntry at *; omega)
      rw [hnone]
      cases (visible s).head? with
      | none => rfl
      | some e =>
        have hlines := length_lines_le e width now
        exact (List.getElem?_eq_none (by omega)).symm

end Frame

namespace BoardState

variable {s : BoardState} {surface : Surface} {now : Moment} {row col : Nat} {text : String}

/-- A row stays exactly when the line that is written over it makes no difference. -/
theorem rowShows_iff_spares {line? : Option String} (hrow : row < surface.height)
    (hleaves : ∀ x c, (Frame.calls (s.fitTo (visibleCapacity surface.height)) surface.width
      surface.height now).foldl (DrawCall.onCell row x) c =
        line?.elim (overwrite col text x ' ')
          fun line => overwrite margin line x (overwrite col text x ' ')) :
    (s.render surface now).2.2.RowShows row col text ↔
      ∀ line ∈ line?, Spares surface.width col text line := by
  refine (rowShows_render_iff hrow hleaves).trans ?_
  cases line? with
  | none => simp
  | some line => simp [Spares]

/-! ### The rows of the footer -/

/-- A row of the footer shows what the footer leaves on it, unless the line of a block that falls
on it makes a difference. -/
theorem rowShows_footer_iff {k : Nat} (hheight : 5 ≤ surface.height) (hk : k < 2)
    (hleaves : ∀ x c, (Frame.footer (s.fitTo (visibleCapacity surface.height)) surface.width
      surface.height).foldl (DrawCall.onCell (surface.height - 2 + k) x) c =
        overwrite col text x ' ') :
    (s.render surface now).2.2.RowShows (surface.height - 2 + k) col text ↔
      ∀ line ∈ Frame.footerLine? (s.fitTo (visibleCapacity surface.height)) surface.width
        surface.height now k, Spares surface.width col text line := by
  have hlow : headerRows ≤ surface.height - 2 + k := by unfold headerRows; omega
  refine rowShows_iff_spares (by omega) fun x c => ?_
  rw [Frame.foldl_calls_footer hlow (Nat.le_add_right _ _), hleaves,
    Frame.lineAt?_footer hheight rfl hk]

theorem rowShows_footerRule_iff (s : BoardState) (now : Moment) (hheight : 5 ≤ surface.height) :
    (s.render surface now).2.2.RowShows (surface.height - 2) 0 (Frame.rule surface.width) ↔
      ∀ line ∈ Frame.footerLine? (s.fitTo (visibleCapacity surface.height)) surface.width
        surface.height now 0, Spares surface.width 0 (Frame.rule surface.width) line :=
  rowShows_footer_iff hheight Nat.two_pos fun _ _ => Frame.foldl_footer_rule (by
    unfold footerRows
    omega)

theorem rowShows_legend_iff (s : BoardState) (now : Moment) (hheight : 5 ≤ surface.height) :
    (s.render surface now).2.2.RowShows (surface.height - 1) 2 (Frame.legend s.controls) ↔
      ∀ line ∈ Frame.footerLine? (s.fitTo (visibleCapacity surface.height)) surface.width
        surface.height now 1, Spares surface.width 2 (Frame.legend s.controls) line := by
  have hlast : surface.height - 1 = surface.height - 2 + 1 := by omega
  rw [hlast]
  exact rowShows_footer_iff hheight Nat.one_lt_two fun _ _ => Frame.foldl_footer_legend (by
    unfold footerRows
    omega)

/-- From nine rows on, and when there is no entry, the footer stays. -/
theorem rowShows_footer (s : BoardState) (now : Moment) (hheight : 5 ≤ surface.height)
    (hroom : 9 ≤ surface.height ∨ s.entryCount = 0) :
    (s.render surface now).2.2.RowShows (surface.height - 2) 0 (Frame.rule surface.width) ∧
      (s.render surface now).2.2.RowShows (surface.height - 1) 2 (Frame.legend s.controls) := by
  have hnone : ∀ k, Frame.footerLine? (s.fitTo (visibleCapacity surface.height)) surface.width
      surface.height now k = none := Frame.footerLine?_eq_none hroom
  rw [rowShows_footerRule_iff s now hheight, rowShows_legend_iff s now hheight, hnone, hnone]
  simp

/-- The blocks write on a row of the footer exactly when a line falls on it. -/
theorem blocks_touch_footer_iff (s : BoardState) (now : Moment) (hheight : 5 ≤ surface.height)
    {k : Nat} (hk : k < 2) :
    (∃ call ∈ Frame.blocks surface.width now
      (Frame.visible (s.fitTo (visibleCapacity surface.height))) headerRows,
        call.touches (surface.height - 2 + k) = true) ↔
      (Frame.footerLine? (s.fitTo (visibleCapacity surface.height)) surface.width surface.height
        now k).isSome = true := by
  rw [← Frame.lineAt?_footer hheight rfl hk]
  exact Frame.blocks_touch_iff (by unfold headerRows; omega)

/-- **The header stays, and the footer stays unless it is written over.**  Whatever the state is
and whatever was on a surface of any width with at least five rows, a frame shows the title, the
status line and a rule in the first three rows, each cut off at the right edge, and no block
writes on them.  From nine rows on, and when there is no entry, the last two rows show a rule and
the legend for the present pause state.  On a lower screen a block writes on one of them exactly
when the first entry shown has a line that falls on it, and the row shows what it should exactly
when this line, if there is one, makes no difference. -/
theorem header_stays_and_footer_unless_written_over (s : BoardState) (surface : Surface)
    (now : Moment) (hheight : 5 ≤ surface.height) :
    let fitted := (s.render surface now).1
    let drawn := (s.render surface now).2.2
    let blocks := Frame.blocks surface.width now (Frame.visible fitted) 3
    let footerLine? := Frame.footerLine? fitted surface.width surface.height now
    drawn.RowShows 0 0 Frame.title ∧ drawn.RowShows 1 2 (Frame.statusLine fitted) ∧
    drawn.RowShows 2 0 (Frame.rule surface.width) ∧
    (∀ row < 3, ∀ call ∈ blocks, call.touches row = false) ∧
    (9 ≤ surface.height ∨ s.entryCount = 0 →
      drawn.RowShows (surface.height - 2) 0 (Frame.rule surface.width) ∧
        drawn.RowShows (surface.height - 1) 2 (Frame.legend s.controls)) ∧
    (drawn.RowShows (surface.height - 2) 0 (Frame.rule surface.width) ↔
      ∀ line ∈ footerLine? 0, Spares surface.width 0 (Frame.rule surface.width) line) ∧
    (drawn.RowShows (surface.height - 1) 2 (Frame.legend s.controls) ↔
      ∀ line ∈ footerLine? 1, Spares surface.width 2 (Frame.legend s.controls) line) ∧
    (∀ k < 2, (∃ call ∈ blocks, call.touches (surface.height - 2 + k) = true) ↔
      (footerLine? k).isSome = true) :=
  ⟨rowShows_title s now hheight, rowShows_status s now hheight, rowShows_headerRule s now hheight,
    fun _ hrow => Frame.blocks_untouched hrow, rowShows_footer s now hheight,
    rowShows_footerRule_iff s now hheight, rowShows_legend_iff s now hheight,
    fun _ hk => blocks_touch_footer_iff s now hheight hk⟩

/-- A transfer that is going on has three lines, so that on eight rows the footer stays. -/
theorem eight_rows_keep_the_footer :
    let s := BoardState.run {} [.allocate "a" 0 4 0, .key (.char 'p')]
    let surface := Surface.new 60 8
    let drawn := (s.render surface 1).2.2
    5 ≤ surface.height ∧ drawn.RowShows 0 0 " tdash - Transfer Dashboard " ∧
      drawn.RowShows 1 2 "Active: 1   PAUSED" ∧
      drawn.RowShows 2 0 "------------------------------------------------------------" ∧
      drawn.RowShows 6 0 "------------------------------------------------------------" ∧
      drawn.RowShows 7 2 "[p] Resume   [c/Esc] Cancel   [j/k] Scroll" := by
  intro s surface drawn
  have hheight : 5 ≤ surface.height := by decide
  have hcap : visibleCapacity surface.height = 1 := by decide
  have hfitted : (s.render surface 1).1 = s.fitTo 1 := by rw [render_fst, hcap]
  have hstatus : Frame.statusLine (s.fitTo 1) = "Active: 1   PAUSED" := by decide
  have hdashes : Frame.rule surface.width =
      "------------------------------------------------------------" := by decide
  -- no line of the block comes as far down as the footer
  have hnone : Frame.footerLine? (s.fitTo 1) 60 8 1 0 = none := rfl
  have hnone' : Frame.footerLine? (s.fitTo 1) 60 8 1 1 = none := rfl
  obtain ⟨htitle, hrow, hupper, -, -, hrule, hlegend, -⟩ :=
    header_stays_and_footer_unless_written_over s surface 1 hheight
  rw [hfitted] at hrow hrule hlegend
  rw [hdashes] at hupper hrule
  refine ⟨hheight, htitle, hstatus ▸ hrow, hupper, hrule.mpr fun line hline => ?_,
    hlegend.mpr fun line hline => ?_⟩
  · exact absurd (hnone.symm.trans hline) (by simp)
  · exact absurd (hnone'.symm.trans hline) (by simp)

/-- On five rows the title of the entry is written over the rule of the footer. -/
theorem low_screen_loses_its_rule :
    let s := BoardState.run {} [.allocate "a" 0 4 0]
    let surface := Surface.new 60 5
    let drawn := (s.render surface 1).2.2
    5 ≤ surface.height ∧ ¬ (drawn.RowShows (surface.height - 2) 0 (Frame.rule surface.width) ∧
      drawn.RowShows (surface.height - 1) 2 (Frame.legend s.controls)) := by
  intro s surface drawn
  have hheight : 5 ≤ surface.height := Nat.le_refl 5
  have htitle : Frame.entryTitle (Entry.new 0 1 "a" 0 4 0) = "a (0)" := by decide
  refine ⟨hheight, fun ⟨hrule, _⟩ => ?_⟩
  have hcap : visibleCapacity surface.height = 1 := by decide
  have hline : Frame.footerLine? (s.fitTo (visibleCapacity surface.height)) surface.width
      surface.height 1 0 = some "a (0)" := by
    rw [hcap, ← htitle]
    rfl
  have hspares := (rowShows_footerRule_iff s 1 hheight).mp hrule "a (0)" hline 2 (by decide)
  exact absurd hspares (by decide)

end BoardState
end TransferBoard
