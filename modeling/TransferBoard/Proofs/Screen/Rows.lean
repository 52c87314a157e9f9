import TransferBoard.Proofs.Screen.Cells

/-!
# What a frame leaves on each row

The header has the first three rows to itself.  The blocks of the entries stand one below the
other from the fourth row on, four rows each, and are drawn after the footer; so on the rows of
the footer they are written over it.

## Main definitions

* `Surface.RowShows row col text` — a row shows a text from a column on, cut off at the right
  edge, and is blank elsewhere.
* `Frame.statusLine` — the second row of the header as one text.
* `Frame.lines e` — the lines of the block of an entry.
* `Frame.lineAt? s row` — the line of a block that falls on a row.

## Main results

* `mem_blocks`, `exists_mem_blocks` — each call of the blocks writes one line of one entry, and
  each line is written.
* `blocks_touch_iff` — the rows that the blocks write on.
* `foldl_header_title`, `foldl_header_status`, `foldl_header_rule` — the rows of the header.
* `foldl_footer_rule`, `foldl_footer_legend` — the rows of the footer.
* `foldl_body` — what the blocks leave in a cell.
* `rowShows_render_iff` — what a row shows, from what the frame leaves on it.
* `rowShows_title`, `rowShows_status`, `rowShows_headerRule`, `rowShows_body` — the rows of the
  header, and those between header and footer.
-/

namespace TransferBoard

/-! ### Texts on a row -/

/-- A row shows a text from a column on, cut off at the right edge, and is blank elsewhere. -/
def Surface.RowShows (s : Surface) (row col : Nat) (text : String) : Prop :=
  row < s.height ∧ ∀ x < s.width, s.cell? row x = some (overwrite col text x ' ')

/-- A text that is filled up with blanks looks the same on a blank row. -/
theorem overwrite_padEnd (width col x : Nat) (text : String) :
    overwrite col (padEnd width ' ' text) x ' ' = overwrite col text x ' ' := by
  unfold overwrite padEnd
  split
  · rw [String.toList_append, String.toList_ofList, List.getD_eq_getElem?_getD,
      List.getD_eq_getElem?_getD, List.getElem?_append]
    split
    · rfl
    · next hge =>
      rw [List.getElem?_eq_none (by omega : text.toList.length ≤ x - col), List.getElem?_replicate]
      split <;> rfl
  · rfl

/-- A text that is written three columns after another one makes one text with it. -/
theorem overwrite_overwrite (col x : Nat) (text next : String) :
    overwrite (col + text.length + 3) next x (overwrite col text x ' ') =
      overwrite col (text ++ "   " ++ next) x ' ' := by
  have hblanks : "   ".toList = List.replicate 3 ' ' := rfl
  unfold overwrite
  by_cases hcol : col ≤ x
  · rw [if_pos hcol, if_pos hcol, String.toList_append, String.toList_append, hblanks,
      List.getD_eq_getElem?_getD, List.getD_eq_getElem?_getD, List.getD_eq_getElem?_getD,
      List.getElem?_append, List.getElem?_append]
    simp only [List.length_append, List.length_replicate, String.length_toList,
      List.getElem?_replicate]
    -- right of the first text there is the second one, and between them the blanks
    by_cases hnext : col + text.length + 3 ≤ x
    · have hnone : text.toList[x - col]? = none :=
        List.getElem?_eq_none (by rw [String.length_toList]; omega)
      have hsub : x - (col + text.length + 3) = x - col - (text.length + 3) := by omega
      rw [if_pos hnext, if_neg (by omega), hnone, hsub]
      rfl
    · rw [if_neg hnext, if_pos (by omega)]
      split
      · rfl
      · have hnone : text.toList[x - col]? = none :=
          List.getElem?_eq_none (by rw [String.length_toList]; omega)
        rw [hnone, if_pos (by omega)]
        rfl
  · rw [if_neg hcol, if_neg hcol, if_neg (by omega)]

namespace Frame

variable {s : BoardState} {width height : Nat} {now : Moment} {row x : Nat} {c : Char}

/-! ### Blocks -/

/-- The lines of the block of an entry: its title, then the bar and the figures of a transfer
that is going on, or why it was given up, or that it is complete and what there is to say about
its digest. -/
def lines (e : Entry) (width : Nat) (now : Moment) : List String :=
  if e.active then
    [entryTitle e, barText e.fraction (max (width - margin * 2) minBarWidth), statsText e now]
  else
    match e.stopped with
    | some reason => [entryTitle e, "STOPPED", reason ++ "   " ++ sizeText e.current]
    | none =>
      [entryTitle e, "DONE", "Download Complete   " ++ sizeText e.current]
        ++ ((digestLine? e).map Prod.fst).toList

theorem length_lines_le (e : Entry) (width : Nat) (now : Moment) :
    (lines e width now).length ≤ rowsPerEntry := by
  unfold lines
  split
  · simp [rowsPerEntry]
  · split
    · simp [rowsPerEntry]
    · cases digestLine? e <;> simp [rowsPerEntry]

/-- Texts that are put one below the other. -/
def stack : List (String × Tone) → Nat → List DrawCall
  | [], _ => []
  | (line, tone) :: rest, top => .put top margin line tone :: stack rest (top + 1)

/-- A block puts its lines one below the other. -/
theorem block_eq_stack (e : Entry) (top width : Nat) (now : Moment) :
    ∃ texts, block e top width now = stack texts top ∧ texts.map Prod.fst = lines e width now := by
  unfold block lines
  split
  · exact ⟨[(_, .plain), (_, .bar), (_, .info)], rfl, rfl⟩
  · unfold endedBlock
    cases e.stopped with
    | some reason => exact ⟨[(_, .plain), (_, .warning), (_, .warning)], rfl, rfl⟩
    | none =>
      cases digestLine? e with
      | none => exact ⟨[(_, .plain), (_, .success), (_, .success)], rfl, rfl⟩
      | some line => exact ⟨[(_, .plain), (_, .success), (_, .success), line], rfl, rfl⟩

theorem mem_stack {texts : List (String × Tone)} {call : DrawCall} :
    ∀ {top : Nat}, call ∈ stack texts top → ∃ j line tone,
      (texts.map Prod.fst)[j]? = some line ∧ call = .put (top + j) margin line tone := by
  induction texts with
  | nil => intro top h; exact absurd h (by simp [stack])
  | cons text texts ih =>
    intro top h
    rcases List.mem_cons.mp h with rfl | hrest
    · exact ⟨0, _, _, rfl, rfl⟩
    · obtain ⟨j, line, tone, hj, rfl⟩ := ih hrest
      exact ⟨j + 1, line, tone, hj, by rw [Nat.add_assoc, Nat.add_comm 1]⟩

theorem exists_mem_stack {texts : List (String × Tone)} {line : String} :
    ∀ (top j : Nat), (texts.map Prod.fst)[j]? = some line →
      ∃ tone, .put (top + j) margin line tone ∈ stack texts top := by
  induction texts with
  | nil => intro top j h; exact absurd h (by simp)
  | cons text texts ih =>
    intro top j h
    cases j with
    | zero =>
      obtain rfl : text.1 = line := Option.some.inj h
      exact ⟨text.2, List.mem_cons_self⟩
    | succ j =>
      obtain ⟨tone, hmem⟩ := ih (top + 1) j h
      rw [Nat.add_assoc, Nat.add_comm 1] at hmem
      exact ⟨tone, List.mem_cons_of_mem _ hmem⟩

theorem stack_untouched {texts : List (String × Tone)} {top : Nat} (h : row < top) :
    ∀ call ∈ stack texts top, call.touches row = false := by
  intro call hcall
  obtain ⟨j, line, tone, -, rfl⟩ := mem_stack hcall
  exact DrawCall.put_untouched (by omega) _ _ _

theorem foldl_stack (texts : List (String × Tone)) : ∀ (top j : Nat) (c : Char),
    (stack texts top).foldl (DrawCall.onCell (top + j) x) c =
      ((texts.map Prod.fst)[j]?).elim c fun line => overwrite margin line x c := by
  induction texts with
  | nil => intro top j c; rfl
  | cons text texts ih =>
    intro top j c
    rw [stack, List.foldl_cons, DrawCall.onCell]
    cases j with
    | zero =>
      rw [if_pos (Nat.add_zero top)]
      exact DrawCall.foldl_onCell_of_untouched (stack_untouched (Nat.lt_succ_self top)) x _
    | succ j =>
      rw [if_neg (by omega), ← Nat.add_assoc, Nat.add_right_comm, ih]
      rfl

/-- Each call of the blocks writes one line of one entry. -/
theorem mem_blocks {es : List Entry} {call : DrawCall} :
    ∀ {top : Nat}, call ∈ blocks width now es top → ∃ i e j line tone, es[i]? = some e ∧
      (lines e width now)[j]? = some line ∧
        call = .put (top + rowsPerEntry * i + j) margin line tone := by
  induction es with
  | nil => intro top h; exact absurd h (by simp [blocks])
  | cons e es ih =>
    intro top h
    rcases List.mem_append.mp h with hblock | hrest
    · obtain ⟨texts, hstack, htexts⟩ := block_eq_stack e top width now
      obtain ⟨j, line, tone, hj, rfl⟩ := mem_stack (hstack ▸ hblock)
      exact ⟨0, e, j, line, tone, rfl, htexts ▸ hj, rfl⟩
    · obtain ⟨i, e', j, line, tone, hi, hj, rfl⟩ := ih hrest
      refine ⟨i + 1, e', j, line, tone, hi, hj, ?_⟩
      rw [Nat.mul_succ, Nat.add_assoc top, Nat.add_comm rowsPerEntry]

/-- Each line of each entry is written. -/
theorem exists_mem_blocks {es : List Entry} {e : Entry} {j : Nat} {line : String}
    (hline : (lines e width now)[j]? = some line) :
    ∀ (top i : Nat), es[i]? = some e →
      ∃ tone, .put (top + rowsPerEntry * i + j) margin line tone ∈ blocks width now es top := by
  induction es with
  | nil => intro top i h; exact absurd h (by simp)
  | cons e' es ih =>
    intro top i h
    cases i with
    | zero =>
      obtain rfl : e' = e := Option.some.inj h
      obtain ⟨texts, hstack, htexts⟩ := block_eq_stack e' top width now
      obtain ⟨tone, hmem⟩ := exists_mem_stack top j (htexts ▸ hline)
      exact ⟨tone, List.mem_append_left _ (hstack ▸ hmem)⟩
    | succ i =>
      obtain ⟨tone, hmem⟩ := ih (top + rowsPerEntry) i h
      rw [Nat.add_assoc top, Nat.add_comm rowsPerEntry, ← Nat.mul_succ] at hmem
      exact ⟨tone, List.mem_append_right _ hmem⟩

/-- The blocks keep to their rows. -/
theorem row_of_mem_blocks {es : List Entry} {top : Nat} {call : DrawCall}
    (hcall : call ∈ blocks width now es top) (htouches : call.touches row = true) :
    top ≤ row ∧ row < top + rowsPerEntry * es.length := by
  obtain ⟨i, e, j, line, tone, hi, hj, rfl⟩ := mem_blocks hcall
  have hentry := (List.getElem?_eq_some_iff.mp hi).1
  have hline := (List.getElem?_eq_some_iff.mp hj).1
  have hlines := length_lines_le e width now
  have hrow : row = top + rowsPerEntry * i + j := by simpa [DrawCall.touches] using htouches
  unfold rowsPerEntry at *
  omega

theorem blocks_untouched {es : List Entry} {top : Nat} (h : row < top) :
    ∀ call ∈ blocks width now es top, call.touches row = false := fun _ hcall =>
  eq_false_of_ne_true fun htouches => Nat.not_le.mpr h (row_of_mem_blocks hcall htouches).1

/-- The blocks write their lines into their rows. -/
theorem foldl_blocks (es : List Entry) {j : Nat} (hj : j < rowsPerEntry) :
    ∀ (top i : Nat) (c : Char),
      (blocks width now es top).foldl (DrawCall.onCell (top + rowsPerEntry * i + j) x) c =
        ((es[i]?).bind fun e => (lines e width now)[j]?).elim c
          fun line => overwrite margin line x c := by
  induction es with
  | nil => intro top i c; rfl
  | cons e es ih =>
    intro top i c
    obtain ⟨texts, hstack, htexts⟩ := block_eq_stack e top width now
    rw [blocks, List.foldl_append, hstack]
    cases i with
    | zero =>
      rw [Nat.mul_zero, Nat.add_zero, foldl_stack, htexts]
      exact DrawCall.foldl_onCell_of_untouched (blocks_untouched (by omega)) x _
    | succ i =>
      -- the first block has no line that far down
      have hnone : (lines e width now)[rowsPerEntry * (i + 1) + j]? = none := by
        have hle := length_lines_le e width now
        have hlt : rowsPerEntry ≤ rowsPerEntry * (i + 1) := Nat.le_mul_of_pos_right _ (by omega)
        exact List.getElem?_eq_none (by omega)
      rw [Nat.add_assoc, foldl_stack, htexts, hnone, ← Nat.add_assoc, Nat.mul_succ,
        ← Nat.add_assoc, Nat.add_right_comm top]
      exact ih (top + rowsPerEntry) i c

/-! ### The header -/

/-- The second row of the header as one text: the number of active entries, the flags, and which
of the entries are shown if not all fit. -/
def statusLine (s : BoardState) : String :=
  activeText s ++ "   " ++ (badge s.controls).1 ++
    if s.controls.visibleCapacity < s.entryCount then
      "   " ++ rangeText s.controls s.entryCount
    else ""

/-- The range of the entries that are shown, if not all fit. -/
def rangeCalls (s : BoardState) : List DrawCall :=
  if s.controls.visibleCapacity < s.entryCount then
    [.put 1 (margin + (activeText s).length + 3 + (badge s.controls).1.length + 3)
      (rangeText s.controls s.entryCount) .plain]
  else []

theorem header_eq (s : BoardState) (width : Nat) : header s width =
    [.clear 0 headerRows, .put 0 0 (padEnd width ' ' title) .header,
      .put 1 margin (activeText s) .info,
      .put 1 (margin + (activeText s).length + 3) (badge s.controls).1 (badge s.controls).2]
    ++ rangeCalls s ++ [.put 2 0 (rule width) .plain] := rfl

theorem rangeCalls_untouched (s : BoardState) (hrow : row ≠ 1) :
    ∀ call ∈ rangeCalls s, call.touches row = false := by
  intro call hcall
  unfold rangeCalls at hcall
  split at hcall
  · obtain rfl := List.mem_singleton.mp hcall
    exact DrawCall.put_untouched hrow _ _ _
  · exact absurd hcall (by simp)

theorem foldl_header_title (s : BoardState) (width x : Nat) (c : Char) :
    (header s width).foldl (DrawCall.onCell 0 x) c = overwrite 0 title x ' ' := by
  have hrange := DrawCall.foldl_onCell_of_untouched (rangeCalls_untouched s Nat.zero_ne_one) x
  rw [← overwrite_padEnd width, header_eq, List.foldl_append, List.foldl_append, hrange]
  simp [DrawCall.onCell, headerRows]

theorem foldl_header_rule (s : BoardState) (width x : Nat) (c : Char) :
    (header s width).foldl (DrawCall.onCell 2 x) c = overwrite 0 (rule width) x ' ' := by
  have hrange := DrawCall.foldl_onCell_of_untouched
    (rangeCalls_untouched s (Nat.succ_ne_self 1)) x
  rw [header_eq, List.foldl_append, List.foldl_append, hrange]
  simp [DrawCall.onCell, headerRows]

theorem foldl_header_status (s : BoardState) (width x : Nat) (c : Char) :
    (header s width).foldl (DrawCall.onCell 1 x) c = overwrite margin (statusLine s) x ' ' := by
  have hbadge := overwrite_overwrite margin x (activeText s) (badge s.controls).1
  rw [header_eq, List.foldl_append, List.foldl_append]
  unfold rangeCalls statusLine
  split
  · have hrange := overwrite_overwrite margin x (activeText s ++ "   " ++ (badge s.controls).1)
      (rangeText s.controls s.entryCount)
    rw [← hbadge] at hrange
    simp only [String.length_append, show "   ".length = 3 from rfl, ← Nat.add_assoc] at hrange
    simpa [DrawCall.onCell, headerRows, String.append_assoc] using hrange
  · simpa [DrawCall.onCell, headerRows] using hbadge

theorem header_untouched (hrow : headerRows ≤ row) :
    ∀ call ∈ header s width, call.touches row = false := by
  have hrow' : 3 ≤ row := hrow
  intro call hcall
  rw [header_eq] at hcall
  simp only [List.mem_append, List.mem_cons, List.not_mem_nil, or_false] at hcall
  rcases hcall with ((rfl | rfl | rfl | rfl) | hrange) | rfl
  · exact DrawCall.clear_untouched (Or.inr hrow)
  · exact DrawCall.put_untouched (by omega) _ _ _
  · exact DrawCall.put_untouched (by omega) _ _ _
  · exact DrawCall.put_untouched (by omega) _ _ _
  · exact rangeCalls_untouched s (by omega) call hrange
  · exact DrawCall.put_untouched (by omega) _ _ _

/-! ### The footer -/

theorem footer_eq (h : footerRows ≤ height) : footer s width height =
    [.clear (height - footerRows) height, .put (height - footerRows) 0 (rule width) .plain,
      .put (height - footerRows + 1) margin (legend s.controls) .plain] :=
  if_neg (Nat.not_lt.mpr h)

theorem foldl_footer_rule (h : footerRows ≤ height) :
    (footer s width height).foldl (DrawCall.onCell (height - footerRows) x) c =
      overwrite 0 (rule width) x ' ' := by
  have hlt : height - footerRows < height := Nat.sub_lt_self Nat.two_pos h
  rw [footer_eq h]
  simp [DrawCall.onCell, hlt]

theorem foldl_footer_legend (h : footerRows ≤ height) :
    (footer s width height).foldl (DrawCall.onCell (height - footerRows + 1) x) c =
      overwrite margin (legend s.controls) x ' ' := by
  have hlt : height - footerRows + 1 < height := by unfold footerRows at *; omega
  rw [footer_eq h]
  simp [DrawCall.onCell, hlt]

theorem footer_untouched (hrow : row < height - footerRows) :
    ∀ call ∈ footer s width height, call.touches row = false := by
  intro call hcall
  rw [footer_eq (by omega)] at hcall
  simp only [List.mem_cons, List.not_mem_nil, or_false] at hcall
  rcases hcall with rfl | rfl | rfl
  · exact DrawCall.clear_untouched (Or.inl hrow)
  · exact DrawCall.put_untouched (by omega) _ _ _
  · exact DrawCall.put_untouched (by omega) _ _ _

/-! ### The body -/

/-- The line of a block that falls on a row, if one does. -/
def lineAt? (s : BoardState) (width : Nat) (now : Moment) (row : Nat) : Option String :=
  ((visible s)[(row - headerRows) / rowsPerEntry]?).bind fun e =>
    (lines e width now)[(row - headerRows) % rowsPerEntry]?

theorem lineAt?_add (s : BoardState) (width : Nat) (now : Moment) (i : Nat) {j : Nat}
    (hj : j < rowsPerEntry) :
    lineAt? s width now (headerRows + rowsPerEntry * i + j) =
      ((visible s)[i]?).bind fun e => (lines e width now)[j]? := by
  have hsub : headerRows + rowsPerEntry * i + j - headerRows = rowsPerEntry * i + j := by omega
  rw [lineAt?, hsub, Nat.mul_add_div (Nat.zero_lt_of_lt hj), Nat.mul_add_mod, Nat.div_eq_of_lt hj,
    Nat.mod_eq_of_lt hj, Nat.add_zero]

/-- The blocks write on a row exactly when a line falls on it. -/
theorem blocks_touch_iff (hrow : headerRows ≤ row) :
    (∃ call ∈ blocks width now (visible s) headerRows, call.touches row = true) ↔
      (lineAt? s width now row).isSome = true := by
  constructor
  · rintro ⟨call, hcall, htouches⟩
    obtain ⟨i, e, j, line, tone, hi, hj, rfl⟩ := mem_blocks hcall
    have hlt : j < rowsPerEntry :=
      Nat.lt_of_lt_of_le (List.getElem?_eq_some_iff.mp hj).1 (length_lines_le e width now)
    obtain rfl : row = headerRows + rowsPerEntry * i + j := by
      simpa [DrawCall.touches] using htouches.symm
    rw [lineAt?_add s width now i hlt, hi, Option.bind_some, hj]
    rfl
  · intro hsome
    obtain ⟨line, hline⟩ := Option.isSome_iff_exists.mp hsome
    obtain ⟨e, hi, hj⟩ := Option.bind_eq_some_iff.mp hline
    obtain ⟨tone, hmem⟩ := exists_mem_blocks hj headerRows _ hi
    refine ⟨_, hmem, ?_⟩
    -- a row is the row of one block, and of one line in it
    have := Nat.div_add_mod (row - headerRows) rowsPerEntry
    simp only [DrawCall.touches, beq_iff_eq]
    omega

/-- Below the blocks there are no lines. -/
theorem lineAt?_eq_none (hrow : headerRows + rowsPerEntry * (visible s).length ≤ row) :
    lineAt? s width now row = none := by
  have hle : (visible s).length ≤ (row - headerRows) / rowsPerEntry := by
    rw [Nat.le_div_iff_mul_le (by decide), Nat.mul_comm]
    omega
  rw [lineAt?, List.getElem?_eq_none hle]
  rfl

/-- **What the body leaves in a cell**: between header and footer it blanks the row, and then it
writes the line of a block over what is there. -/
theorem foldl_body (hrow : headerRows ≤ row) :
    (body s width height now).foldl (DrawCall.onCell row x) c =
      (lineAt? s width now row).elim (if row < height - footerRows then ' ' else c)
        fun line => overwrite margin line x (if row < height - footerRows then ' ' else c) := by
  obtain ⟨i, j, hj, rfl⟩ : ∃ i j, j < rowsPerEntry ∧ row = headerRows + rowsPerEntry * i + j :=
    ⟨(row - headerRows) / rowsPerEntry, (row - headerRows) % rowsPerEntry,
      Nat.mod_lt _ (by decide), by
        have := Nat.div_add_mod (row - headerRows) rowsPerEntry
        omega⟩
  rw [body, List.foldl_cons, foldl_blocks _ hj, lineAt?_add s width now i hj, DrawCall.onCell]
  simp only [hrow, true_and]

theorem body_untouched (hrow : row < headerRows) :
    ∀ call ∈ body s width height now, call.touches row = false := by
  intro call hcall
  rcases List.mem_cons.mp hcall with rfl | hblocks
  · exact DrawCall.clear_untouched (Or.inl hrow)
  · exact blocks_untouched hrow call hblocks

/-! ### The whole frame -/

/-- The header has its rows to itself. -/
theorem foldl_calls_header (hheight : headerRows + footerRows ≤ height) (hrow : row < headerRows) :
    (calls s width height now).foldl (DrawCall.onCell row x) c =
      (header s width).foldl (DrawCall.onCell row x) c := by
  rw [calls, List.foldl_append, List.foldl_append,
    DrawCall.foldl_onCell_of_untouched (body_untouched hrow),
    DrawCall.foldl_onCell_of_untouched (footer_untouched (by omega))]

/-- Between header and footer there is nothing but the lines of the blocks. -/
theorem foldl_calls_body (hrow : headerRows ≤ row) (hrow' : row < height - footerRows) :
    (calls s width height now).foldl (DrawCall.onCell row x) c =
      overwrite margin ((lineAt? s width now row).getD "") x ' ' := by
  rw [calls, List.foldl_append, foldl_body hrow, if_pos hrow']
  cases lineAt? s width now row with
  | none => simp [overwrite]
  | some line => rfl

/-- On the rows of the footer the lines of the blocks are written over it. -/
theorem foldl_calls_footer (hrow : headerRows ≤ row) (hrow' : height - footerRows ≤ row) :
    (calls s width height now).foldl (DrawCall.onCell row x) c =
      (lineAt? s width now row).elim ((footer s width height).foldl (DrawCall.onCell row x) c)
        fun line => overwrite margin line x
          ((footer s width height).foldl (DrawCall.onCell row x) c) := by
  rw [calls, List.foldl_append, List.foldl_append,
    DrawCall.foldl_onCell_of_untouched (header_untouched hrow), foldl_body hrow,
    if_neg (Nat.not_lt.mpr hrow')]

end Frame

namespace BoardState

variable {s : BoardState} {surface : Surface} {now : Moment} {row col : Nat} {text : String}

/-- What a frame leaves on a row, whatever was there before, decides what the row shows. -/
theorem rowShows_render_iff {cell : Nat → Char} (hrow : row < surface.height)
    (hleaves : ∀ x c, (Frame.calls (s.fitTo (visibleCapacity surface.height)) surface.width
      surface.height now).foldl (DrawCall.onCell row x) c = cell x) :
    (s.render surface now).2.2.RowShows row col text ↔
      ∀ x < surface.width, cell x = overwrite col text x ' ' := by
  obtain ⟨hwidth, hheight⟩ := s.size_render surface now
  have hcell : ∀ x < surface.width, (s.render surface now).2.2.cell? row x = some (cell x) := by
    intro x hx
    obtain ⟨c, hc⟩ := surface.cell?_isSome hrow hx
    rw [cell?_render, hc, Option.map_some, hleaves]
  constructor
  · rintro ⟨-, hcells⟩ x hx
    exact Option.some.inj ((hcell x hx).symm.trans (hcells x (hwidth.symm ▸ hx)))
  · intro hcells
    refine ⟨hheight.symm ▸ hrow, fun x hx => ?_⟩
    rw [hwidth] at hx
    rw [hcell x hx, hcells x hx]

/-- A row shows a text when the frame leaves the text on it. -/
theorem rowShows_render (hrow : row < surface.height)
    (hleaves : ∀ x c, (Frame.calls (s.fitTo (visibleCapacity surface.height)) surface.width
      surface.height now).foldl (DrawCall.onCell row x) c = overwrite col text x ' ') :
    (s.render surface now).2.2.RowShows row col text :=
  (rowShows_render_iff hrow hleaves).mpr fun _ _ => rfl

/-- A row of the header shows what the header leaves on it. -/
theorem rowShows_header (hheight : 5 ≤ surface.height) (hrow : row < headerRows)
    (hleaves : ∀ x c, (Frame.header (s.fitTo (visibleCapacity surface.height))
      surface.width).foldl (DrawCall.onCell row x) c = overwrite col text x ' ') :
    (s.render surface now).2.2.RowShows row col text := by
  unfold headerRows at hrow
  refine rowShows_render (by omega) fun x c => ?_
  rw [Frame.foldl_calls_header hheight hrow, hleaves]

theorem rowShows_title (s : BoardState) (now : Moment) (hheight : 5 ≤ surface.height) :
    (s.render surface now).2.2.RowShows 0 0 Frame.title :=
  rowShows_header hheight (by decide) fun x c => Frame.foldl_header_title _ _ x c

theorem rowShows_status (s : BoardState) (now : Moment) (hheight : 5 ≤ surface.height) :
    (s.render surface now).2.2.RowShows 1 2
      (Frame.statusLine (s.fitTo (visibleCapacity surface.height))) :=
  rowShows_header hheight (by decide) fun x c => Frame.foldl_header_status _ _ x c

theorem rowShows_headerRule (s : BoardState) (now : Moment) (hheight : 5 ≤ surface.height) :
    (s.render surface now).2.2.RowShows 2 0 (Frame.rule surface.width) :=
  rowShows_header hheight (by decide) fun x c => Frame.foldl_header_rule _ _ x c

/-- Between header and footer a row shows the line that falls on it. -/
theorem rowShows_body (s : BoardState) (now : Moment) (htop : headerRows ≤ row)
    (hbottom : row < surface.height - footerRows) :
    (s.render surface now).2.2.RowShows row 2 ((Frame.lineAt?
      (s.fitTo (visibleCapacity surface.height)) surface.width now row).getD "") :=
  rowShows_render (by omega) fun _ _ => Frame.foldl_calls_body htop hbottom

end BoardState
end TransferBoard
