import Mathlib.Data.Nat.Digits.Defs
import TransferBoard.Proofs.Board.FreeSlots
import TransferBoard.Proofs.Screen.BlockTexts

/-!
# The entries on the screen

On a screen with room for a block, the entries from the scroll offset on are shown in the order
of their slots, as many as fit, each in four rows of its own between header and footer.  The
header tells which ones they are as soon as not all of them fit.

## Main definitions

* `Frame.range a b n` — the text that tells which entries are shown.
* `DrawCall.FitsWord` — the row and the column of a call are words of 16 bits.

## Main results

* `visible_getElem?`, `length_visible` — which entries are shown.
* `range_mem_calls_iff` — when the header tells which entries are shown.
* `calls_fitWord` — the sums that rows and columns are made of do not overflow.
* `showsBlock_render` — an entry that is shown has the rows of its block.
* `body_shows_the_entries` — what is between header and footer.
-/

namespace TransferBoard

/-- The rows and columns of a call are words of 16 bits. -/
def DrawCall.FitsWord : DrawCall → Prop
  | put row col _ _ => row < 65536 ∧ col < 65536
  | clear top bottom => top < 65536 ∧ bottom < 65536
  | _ => True

namespace Frame

variable {s : BoardState} {width height : Nat} {now : Moment}

/-! ### Which entries are shown -/

/-- The entries `a` to `b` of `n` are shown. -/
def range (a b n : Nat) : String :=
  "[" ++ toString a ++ "-" ++ toString b ++ " of " ++ toString n ++ "]"

theorem visibleCapacity_of_room (hroom : 9 ≤ height) :
    visibleCapacity height = (height - 5) / 4 := by
  unfold visibleCapacity headerRows footerRows rowsPerEntry
  omega

theorem visible_getElem? (s : BoardState) {i : Nat} (hi : i < s.controls.visibleCapacity) :
    (visible s)[i]? = s.entries[s.controls.scrollOffset + i]? := by
  rw [visible, List.getElem?_take_of_lt hi, List.getElem?_drop]

theorem length_visible (s : BoardState) : (visible s).length =
    min s.controls.visibleCapacity (s.entryCount - s.controls.scrollOffset) := by
  rw [visible, List.length_take, List.length_drop, BoardState.entryCount]

/-! ### The range in the header -/

theorem head?_range (a b n : Nat) : (range a b n).toList.head? = some '[' := by
  simp [range, String.toList_append]

theorem activeText_ne_range (s : BoardState) (a b n : Nat) : activeText s ≠ range a b n := by
  intro heq
  have hhead := heq ▸ head?_range a b n
  simp [activeText, String.toList_append] at hhead

theorem badge_ne_range (c : Controls) (a b n : Nat) : (badge c).1 ≠ range a b n := by
  intro heq
  have hhead := heq ▸ head?_range a b n
  unfold badge at hhead
  split at hhead
  · simp at hhead
  · split at hhead <;> simp at hhead

/-- **The header tells which entries are shown exactly when not all of them fit.** -/
theorem range_mem_calls_iff (hheight : headerRows + footerRows ≤ height) :
    (∃ a b n col tone, .put 1 col (range a b n) tone ∈ calls s width height now) ↔
      s.controls.visibleCapacity < s.entryCount := by
  -- the row of the range is neither of the footer nor of the body
  have hrow : 1 < height - footerRows := by unfold headerRows footerRows at *; omega
  have hhead : 1 < headerRows := by decide
  constructor
  · rintro ⟨a, b, n, col, tone, hmem⟩
    have htouches : (DrawCall.put 1 col (range a b n) tone).touches 1 = true := rfl
    rcases List.mem_append.mp hmem with hmem | hbody
    · rcases List.mem_append.mp hmem with hheader | hfooter
      · -- of the texts of the header only the range is one
        rw [header_eq] at hheader
        simp only [List.mem_append, List.mem_cons, List.not_mem_nil, or_false, DrawCall.put.injEq,
          reduceCtorEq, false_or] at hheader
        rcases hheader with ((⟨h, -⟩ | ⟨-, -, h, -⟩ | ⟨-, -, h, -⟩) | hrange) | ⟨h, -⟩
        · exact absurd h (by decide)
        · exact absurd h.symm (activeText_ne_range s a b n)
        · exact absurd h.symm (badge_ne_range s.controls a b n)
        · unfold rangeCalls at hrange
          split at hrange
          · assumption
          · exact absurd hrange (by simp)
        · exact absurd h (by decide)
      · exact absurd htouches (by simp [footer_untouched hrow _ hfooter])
    · exact absurd htouches (by simp [body_untouched hhead _ hbody])
  · intro hmore
    have hrange : .put 1 (margin + (activeText s).length + 3 + (badge s.controls).1.length + 3)
        (rangeText s.controls s.entryCount) .plain ∈ header s width := by
      rw [header_eq, rangeCalls, if_pos hmore]
      exact List.mem_append_left _ (List.mem_append_right _ (List.mem_singleton.mpr rfl))
    exact ⟨_, _, _, _, _, List.mem_append_left _ (List.mem_append_left _ hrange)⟩

/-! ### Words of 16 bits -/

theorem length_activeText_le (hentries : s.entryCount ≤ maxEntries) :
    (activeText s).length ≤ 12 := by
  have hactive : s.activeCount ≤ s.entryCount := List.length_filter_le _ _
  have hdigits : (toString s.activeCount).length ≤ 4 :=
    Nat.repr_length s.activeCount 4 (by decide) (by unfold maxEntries at hentries; omega)
  rw [activeText, String.length_append, show "Active: ".length = 8 from rfl]
  omega

theorem length_badge_le (c : Controls) : (badge c).1.length ≤ 13 := by
  unfold badge
  split
  · decide
  · split <;> decide

theorem header_fitWord (hentries : s.entryCount ≤ maxEntries) :
    ∀ call ∈ header s width, call.FitsWord := by
  have hactive := length_activeText_le hentries
  have hbadge := length_badge_le s.controls
  intro call hcall
  rw [header_eq] at hcall
  simp only [List.mem_append, List.mem_cons, List.not_mem_nil, or_false] at hcall
  rcases hcall with ((rfl | rfl | rfl | rfl) | hrange) | rfl
  · simp [DrawCall.FitsWord, headerRows]
  · simp [DrawCall.FitsWord]
  · simp [DrawCall.FitsWord, margin]
  · simp only [DrawCall.FitsWord, margin]
    omega
  · unfold rangeCalls at hrange
    split at hrange
    · obtain rfl := List.mem_singleton.mp hrange
      simp only [DrawCall.FitsWord, margin]
      omega
    · exact absurd hrange (by simp)
  · simp [DrawCall.FitsWord]

theorem footer_fitWord (hheight : height < 65536) :
    ∀ call ∈ footer s width height, call.FitsWord := by
  intro call hcall
  unfold footer footerRows at hcall
  split at hcall
  · exact absurd hcall (by simp)
  · simp only [List.mem_cons, List.not_mem_nil, or_false] at hcall
    rcases hcall with rfl | rfl | rfl
    · simp only [DrawCall.FitsWord]
      omega
    · simp only [DrawCall.FitsWord]
      omega
    · simp only [DrawCall.FitsWord, margin]
      omega

theorem body_fitWord (hheight : height < 65536) (hentries : s.entryCount ≤ maxEntries) :
    ∀ call ∈ body s width height now, call.FitsWord := by
  intro call hcall
  rcases List.mem_cons.mp hcall with rfl | hblocks
  · simp only [DrawCall.FitsWord, headerRows, footerRows]
    omega
  · obtain ⟨i, e, j, line, tone, hi, hj, rfl⟩ := mem_blocks hblocks
    have hshown := (List.getElem?_eq_some_iff.mp hi).1
    have hline := (List.getElem?_eq_some_iff.mp hj).1
    have hlines := length_lines_le e width now
    rw [length_visible] at hshown
    unfold maxEntries at hentries
    simp only [DrawCall.FitsWord, headerRows, rowsPerEntry, margin] at hlines ⊢
    omega

/-- **Nothing overflows**: with as many entries as there are at most, on a surface whose height is
a word of 16 bits, so is each sum that a row or a column is made of. -/
theorem calls_fitWord (hheight : height < 65536) (hentries : s.entryCount ≤ maxEntries) :
    ∀ call ∈ calls s width height now, call.FitsWord := by
  intro call hcall
  rcases List.mem_append.mp hcall with hcall | hbody
  · rcases List.mem_append.mp hcall with hheader | hfooter
    · exact header_fitWord hentries call hheader
    · exact footer_fitWord hheight call hfooter
  · exact body_fitWord hheight hentries call hbody

end Frame

namespace BoardState

/-- An entry that is shown has the rows of its block, when these are above the footer. -/
theorem showsBlock_render (s : BoardState) {surface : Surface} (now : Moment) {i : Nat} {e : Entry}
    (he : (Frame.visible (s.render surface now).1)[i]? = some e)
    (hroom : 3 + 4 * i + 3 < surface.height - footerRows) :
    (s.render surface now).2.2.ShowsBlock (3 + 4 * i) e now := by
  refine Surface.showsBlock_of_lines fun j hj => ?_
  -- the line with number `j` of the block falls on the row with number `j` of the four
  have hline : Frame.lineAt? (s.render surface now).1 surface.width now (3 + 4 * i + j) = _ :=
    Frame.lineAt?_add (s.render surface now).1 surface.width now i hj
  rw [he, Option.bind_some] at hline
  rw [(s.size_render surface now).1, List.getD_eq_getElem?_getD, ← hline]
  exact rowShows_body s now (by unfold headerRows; omega) (by omega)

/-- **The entries are on the screen.**  After any operations on an empty dashboard, a frame on a
surface of any width with at least nine rows, whatever was on it, shows the entries from the
scroll offset `o` on, which is brought back into its range, in the order of their slots:

* each of the first `cap` of them that there are has four rows of its own between header and
  footer, which say all that the dashboard knows about it from the third column on, cut off at the
  right edge;
* the other rows between header and footer are blank;
* no call of a block touches a row outside;
* no row or column that a call is made for needs more than 16 bits, and they are sums, so that
  no part of one does;
* the second row shows the number of active entries, the flags, and, exactly when there are more
  than `cap` entries, that those from `o + 1` to the last one shown are on the screen; and
  exactly then such a text is written. -/
theorem body_shows_the_entries (actions : List BoardAction) (surface : Surface) (now : Moment)
    (hroom : 9 ≤ surface.height) (hheight : surface.height < 65536) :
    let s := BoardState.run {} actions
    let fitted := (s.render surface now).1
    let drawn := (s.render surface now).2.2
    let cap := (surface.height - 5) / 4
    let count := s.entryCount
    let o := min s.controls.scrollOffset (count - cap)
    let shown := min cap (count - o)
    let calls := Frame.calls fitted surface.width surface.height now
    fitted.entries = s.entries ∧ fitted.controls.scrollOffset = o ∧
    (∀ i < shown, 3 + 4 * i + 3 ≤ surface.height - 3 ∧ ∃ e, s.entries[o + i]? = some e ∧
      drawn.ShowsBlock (3 + 4 * i) e now) ∧
    (∀ row, 3 + 4 * shown ≤ row → row ≤ surface.height - 3 → drawn.RowShows row 2 "") ∧
    (∀ call ∈ Frame.blocks surface.width now (Frame.visible fitted) 3, ∀ row,
      call.touches row = true → 3 ≤ row ∧ row ≤ surface.height - 3) ∧
    (∀ call ∈ calls, call.FitsWord) ∧
    drawn.RowShows 1 2 (Frame.activeText s ++ "   " ++ (Frame.badge s.controls).1 ++
      if cap < count then "   " ++ Frame.range (o + 1) (min (o + cap) count) count else "") ∧
    ((∃ a b n col tone, .put 1 col (Frame.range a b n) tone ∈ calls) ↔ cap < count) := by
  intro s fitted drawn cap count o shown calls
  have hcap : visibleCapacity surface.height = cap := Frame.visibleCapacity_of_room hroom
  have hcapacity : fitted.controls.visibleCapacity = cap := hcap
  have hoffset : fitted.controls.scrollOffset = o := by
    show min s.controls.scrollOffset (count - visibleCapacity surface.height) = o
    rw [hcap]
  have hshown : (Frame.visible fitted).length = shown := by
    rw [Frame.length_visible, hcapacity, hoffset]
    rfl
  have hfits : 4 * shown ≤ surface.height - 5 := by omega
  have hcount : fitted.entryCount ≤ maxEntries :=
    Nat.le_trans (Nat.le_of_eq (entryCount_run actions)) (length_run_le actions)
  refine ⟨rfl, hoffset, ?_, ?_, ?_, Frame.calls_fitWord hheight hcount, ?_, ?_⟩
  · -- the `i`-th entry shown is the one with number `o + i`, and its block fits
    intro i hi
    have hlt : i < (Frame.visible fitted).length := hshown ▸ hi
    have hentry := List.getElem?_eq_getElem hlt
    refine ⟨by omega, (Frame.visible fitted)[i], ?_, ?_⟩
    · rw [← hentry, Frame.visible_getElem? fitted (by omega), hoffset]
      rfl
    · exact s.showsBlock_render now hentry (by unfold footerRows; omega)
  · -- no line falls below the last block
    intro row hlow hbottom
    have hnone : Frame.lineAt? fitted surface.width now row = none :=
      Frame.lineAt?_eq_none (by rw [hshown]; exact hlow)
    have hrow : drawn.RowShows row 2 ((Frame.lineAt? fitted surface.width now row).getD "") :=
      rowShows_body s now (by unfold headerRows; omega) (by unfold footerRows; omega)
    rwa [hnone] at hrow
  · -- a call of a block touches the row of its line only
    intro call hcall row htouches
    obtain ⟨htop, hbottom⟩ := Frame.row_of_mem_blocks hcall htouches
    rw [hshown] at hbottom
    unfold rowsPerEntry at hbottom
    omega
  · -- the number of active entries and the flags are not changed by fitting
    have hstatus : Frame.statusLine fitted = Frame.activeText s ++ "   " ++
        (Frame.badge s.controls).1 ++ if cap < count then
          "   " ++ Frame.range (o + 1) (min (o + cap) count) count else "" := by
      rw [← hoffset, ← hcapacity]
      rfl
    rw [← hstatus]
    exact rowShows_status s now (by omega)
  · rw [← hcapacity]
    exact Frame.range_mem_calls_iff (by unfold headerRows footerRows; omega)

/-- Four entries on a screen that has room for three, scrolled by one: a transfer that is going on,
one that is complete and has the expected digest, and one that has been given up. -/
theorem three_of_four_entries_are_on_the_screen :
    let actions : List BoardAction := [.allocate "a" 0 4 0, .allocate "b" 1536 4096 0,
      .allocate "c" 0 4 0, .allocate "d" 0 4 0,
      .modify ⟨2, 3⟩ (.announce none (some .md5) (some "AB12")), .modify ⟨2, 3⟩ .finish,
      .modify ⟨2, 3⟩ (.settleDigest (.ok "ab12")), .modify ⟨3, 4⟩ (.stop "Cancelled"),
      .key .down]
    let surface := Surface.new 26 17
    let drawn := ((BoardState.run {} actions).render surface nanosPerSecond).2.2
    9 ≤ surface.height ∧ surface.height < 65536 ∧
      drawn.RowShows 1 2 "Active: 2   RUNNING   [2-4 of 4]" ∧
      drawn.RowShows 3 2 "b (1)" ∧ drawn.RowShows 4 2 "[#######             ]" ∧
      drawn.RowShows 5 2 " 37.5%   1.50 KiB / 4.00 KiB   1.50 KiB/s   ETA 00:00:01" ∧
      drawn.RowShows 6 2 "" ∧
      drawn.RowShows 7 2 "c (2)" ∧ drawn.RowShows 8 2 "DONE" ∧
      drawn.RowShows 9 2 "Download Complete   4 B" ∧
      drawn.RowShows 10 2 "MD5: ab12 [VERIFIED]" ∧
      drawn.RowShows 11 2 "d (3)" ∧ drawn.RowShows 12 2 "STOPPED" ∧
      drawn.RowShows 13 2 "Cancelled   0 B" ∧ drawn.RowShows 14 2 "" := by
  intro actions surface drawn
  have hroom : 9 ≤ surface.height := by decide
  have hheight : surface.height < 65536 := by decide
  have hcap : (surface.height - 5) / 4 = 3 := by decide
  have hcount : (BoardState.run {} actions).entryCount = 4 := by decide +kernel
  have hoffset : (BoardState.run {} actions).controls.scrollOffset = 1 := by decide +kernel
  have hwidth : drawn.width = 26 := (size_render _ surface nanosPerSecond).1
  have hstatus : Frame.activeText (BoardState.run {} actions) ++ "   " ++
      (Frame.badge (BoardState.run {} actions).controls).1 ++ ("   " ++ Frame.range 2 4 4) =
        "Active: 2   RUNNING   [2-4 of 4]" := by decide +kernel
  obtain ⟨-, -, hblocks, -, -, -, hrow, -⟩ :=
    body_shows_the_entries actions surface nanosPerSecond hroom hheight
  simp only [hcap, hcount, hoffset] at hblocks hrow
  -- what an entry is like can be told from the list that it is in
  have hfield : ∀ {α : Type} {i : Nat} {e : Entry} (f : Entry → α) {a : α},
      (BoardState.run {} actions).entries[i]? = some e →
        ((BoardState.run {} actions).entries[i]?).map f = some a → f e = a :=
    fun f _ he h => Option.some.inj ((congrArg (Option.map f) he).symm.trans h)
  obtain ⟨-, b, hb, hgoing⟩ := hblocks 0 (by decide)
  obtain rfl : Entry.new 1 2 "b" 1536 4096 0 = b := Option.some.inj hb
  have hbar := hgoing.bar rfl 20 (by rw [hwidth]; decide)
  have hfigures := hgoing.figures rfl
  obtain ⟨-, c, hc, hfinished⟩ := hblocks 1 (by decide)
  have hended : c.active = false := hfield Entry.active hc (by decide +kernel)
  have hwhole : c.stopped = none := hfield Entry.stopped hc (by decide +kernel)
  have hdigest := hfinished.digest hended hwhole .md5 "ab12"
    (hfield Entry.kind hc (by decide +kernel)) (hfield Entry.digestError hc (by decide +kernel))
    (hfield Entry.digest hc (by decide +kernel))
  obtain ⟨-, d, hd, hstopped⟩ := hblocks 2 (by decide)
  obtain ⟨hword, hreason⟩ := hstopped.stopped (hfield Entry.active hd (by decide +kernel))
    "Cancelled" (hfield Entry.stopped hd (by decide +kernel))
  have hreads : ∀ {row : Nat} {text text' : String}, drawn.RowShows row 2 text → text = text' →
      drawn.RowShows row 2 text' := fun h htext => htext ▸ h
  refine ⟨hroom, hheight, hreads hrow hstatus, hreads hgoing.title ?_, hreads hbar ?_,
    hreads hfigures ?_, hgoing.blank (.inl rfl), hreads hfinished.title ?_,
    (hfinished.done hended hwhole).1, hreads (hfinished.done hended hwhole).2 ?_,
    hreads hdigest ?_, hreads hstopped.title ?_, hword, hreads hreason ?_, hstopped.blank ?_⟩
  · decide +kernel
  · decide +kernel
  · decide +kernel
  · exact hfield (fun e => e.name ++ " (" ++ toString e.slot ++ ")") hc (by decide +kernel)
  · exact hfield (fun e => "Download Complete   " ++ sizeText e.current) hc (by decide +kernel)
  · exact hfield (fun e => DigestKind.md5.label ++ ": " ++ "ab12" ++
      if e.expected = none then "" else if e.verified then " [VERIFIED]" else " [MISMATCH]") hc
      (by decide +kernel)
  · exact hfield (fun e => e.name ++ " (" ++ toString e.slot ++ ")") hd (by decide +kernel)
  · exact hfield (fun e => "Cancelled" ++ "   " ++ sizeText e.current) hd (by decide +kernel)
  · exact .inr (.inr (.inl (hfield Entry.kind hd (by decide +kernel))))

end BoardState
end TransferBoard
