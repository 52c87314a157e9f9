import TransferBoard.Proofs.Screen.Rows

/-!
# What a block says

The four rows of a block tell all that the dashboard knows about a transfer: its name and slot; a
bar and figures while it is going on; why it was given up; or how much there is of it, and what is
to be said about its digest.

## Main definitions

* `Surface.ShowsBlock d top e` — four rows say all that about an entry.

## Main results

* `lines_of_active`, `lines_of_stopped`, `lines_of_done` — the lines of a block.
* `digestLine?_of_error`, `digestLine?_of_digest`, `digestLine?_eq_none` — the line about the
  digest.
* `showsBlock_of_lines` — rows that show the lines of a block say all that.
-/

namespace TransferBoard

/-! ### The lines of a block -/

namespace Frame

variable {e : Entry} {width : Nat} {now : Moment}

/-- The figures are the part in percent, the bytes, the rate, and the remaining time when it can
be told. -/
theorem statsText_eq (e : Entry) (now : Moment) : statsText e now =
    padStart 5 ' ' (fixedPlaces 1 e.percent) ++ "%   " ++ sizeText e.current ++ " / " ++
      (if e.total = 0 then "?" else sizeText e.total) ++ "   " ++ rateText (e.rate now) ++
      (e.remaining now).elim "" fun seconds => "   ETA " ++ remainingText seconds := by
  have htotal : totalText e = if e.total = 0 then "?" else sizeText e.total := by
    unfold totalText
    by_cases hzero : e.total = 0
    · rw [if_pos hzero, hzero, if_neg (by decide)]
    · rw [if_neg hzero, if_pos (UInt64.pos_iff_ne_zero.mpr hzero)]
  unfold statsText
  rw [htotal]
  cases e.remaining now with
  | none => exact String.append_empty.symm
  | some seconds => exact String.append_assoc

theorem lines_of_active (h : e.active = true) (width : Nat) (now : Moment) :
    lines e width now =
      [entryTitle e, barText e.fraction (max (width - 4) 10), statsText e now] := by
  rw [lines, if_pos h]
  rfl

theorem lines_of_stopped (h : e.active = false) {reason : String} (hstop : e.stopped = some reason)
    (width : Nat) (now : Moment) :
    lines e width now = [entryTitle e, "STOPPED", reason ++ "   " ++ sizeText e.current] := by
  rw [lines, if_neg (by simp [h]), hstop]

theorem lines_of_done (h : e.active = false) (hstop : e.stopped = none) (width : Nat)
    (now : Moment) :
    lines e width now = [entryTitle e, "DONE", "Download Complete   " ++ sizeText e.current] ++
      ((digestLine? e).map Prod.fst).toList := by
  rw [lines, if_neg (by simp [h]), hstop]

/-! ### The line about the digest -/

theorem digestLine?_eq_none (h : e.kind = none ∨ e.digestError = none ∧ e.digest = none) :
    digestLine? e = none := by
  unfold digestLine?
  cases hkind : e.kind with
  | none => rfl
  | some kind =>
    obtain ⟨herror, hdigest⟩ := h.resolve_left (by simp [hkind])
    simp only [herror, hdigest]

theorem digestLine?_of_error {kind : DigestKind} {cause : String} (hkind : e.kind = some kind)
    (herror : e.digestError = some cause) :
    (digestLine? e).map Prod.fst = some (kind.label ++ ": checksum failed (" ++ cause ++ ")") := by
  simp only [digestLine?, hkind, herror, Option.map_some]

/-- What stands after a digest: nothing, when none was expected. -/
def mark (e : Entry) : String :=
  if e.expected = none then "" else if e.verified then " [VERIFIED]" else " [MISMATCH]"

theorem digestLine?_of_digest {kind : DigestKind} {digest : String} (hkind : e.kind = some kind)
    (herror : e.digestError = none) (hdigest : e.digest = some digest) :
    (digestLine? e).map Prod.fst = some (kind.label ++ ": " ++ digest ++ mark e) := by
  simp only [digestLine?, hkind, herror, hdigest, mark]
  cases e.expected with
  | none => simp
  | some expected => cases e.verified <;> simp

end Frame

/-! ### Four rows -/

/-- Four rows, from one on, say all that the dashboard knows about a transfer. -/
structure Surface.ShowsBlock (d : Surface) (top : Nat) (e : Entry) (now : Moment) : Prop where
  /-- The name and the slot. -/
  title : d.RowShows top 2 (e.name ++ " (" ++ toString e.slot ++ ")")
  /-- While it is going on, a bar: cells between brackets, the first ones filled. -/
  bar : e.active = true → ∀ cells, cells + 2 = max (d.width - 4) 10 →
    d.RowShows (top + 1) 2 ("[" ++
      String.ofList (List.replicate (filledCells e.fraction cells) '#') ++
      String.ofList (List.replicate (cells - filledCells e.fraction cells) ' ') ++ "]")
  /-- And the figures: percent, bytes, rate, and the remaining time when it can be told. -/
  figures : e.active = true → d.RowShows (top + 2) 2
    (padStart 5 ' ' (fixedPlaces 1 e.percent) ++ "%   " ++ sizeText e.current ++ " / " ++
      (if e.total = 0 then "?" else sizeText e.total) ++ "   " ++ rateText (e.rate now) ++
      (e.remaining now).elim "" fun seconds => "   ETA " ++ remainingText seconds)
  /-- Why it was given up. -/
  stopped : e.active = false → ∀ reason, e.stopped = some reason →
    d.RowShows (top + 1) 2 "STOPPED" ∧
      d.RowShows (top + 2) 2 (reason ++ "   " ++ sizeText e.current)
  /-- That it is complete. -/
  done : e.active = false → e.stopped = none →
    d.RowShows (top + 1) 2 "DONE" ∧
      d.RowShows (top + 2) 2 ("Download Complete   " ++ sizeText e.current)
  /-- Why there is no digest. -/
  digestFailed : e.active = false → e.stopped = none → ∀ kind cause, e.kind = some kind →
    e.digestError = some cause →
      d.RowShows (top + 3) 2 (kind.label ++ ": checksum failed (" ++ cause ++ ")")
  /-- The digest, and whether it is the one that was expected, if one was. -/
  digest : e.active = false → e.stopped = none → ∀ kind digest, e.kind = some kind →
    e.digestError = none → e.digest = some digest →
      d.RowShows (top + 3) 2 (kind.label ++ ": " ++ digest ++
        if e.expected = none then "" else if e.verified then " [VERIFIED]" else " [MISMATCH]")
  /-- Nothing about a digest in all other cases. -/
  blank : e.active = true ∨ e.stopped ≠ none ∨ e.kind = none ∨
    e.digestError = none ∧ e.digest = none → d.RowShows (top + 3) 2 ""

/-- **Rows that show the lines of a block say all that.** -/
theorem Surface.showsBlock_of_lines {d : Surface} {top : Nat} {e : Entry} {now : Moment}
    (h : ∀ j < 4, d.RowShows (top + j) 2 ((Frame.lines e d.width now).getD j "")) :
    d.ShowsBlock top e now where
  title := by
    have htitle := h 0 (by decide)
    cases hactive : e.active with
    | true => rwa [Frame.lines_of_active hactive] at htitle
    | false =>
      cases hstop : e.stopped with
      | some reason => rwa [Frame.lines_of_stopped hactive hstop] at htitle
      | none => rwa [Frame.lines_of_done hactive hstop] at htitle
  bar hactive cells hcells := by
    have hbar := h 1 (by decide)
    rw [Frame.lines_of_active hactive, ← hcells] at hbar
    exact hbar
  figures hactive := by
    have hfigures := h 2 (by decide)
    rw [Frame.lines_of_active hactive] at hfigures
    exact Frame.statsText_eq e now ▸ hfigures
  stopped hactive reason hstop := by
    rw [Frame.lines_of_stopped hactive hstop] at h
    exact ⟨h 1 (by decide), h 2 (by decide)⟩
  done hactive hstop := by
    rw [Frame.lines_of_done hactive hstop] at h
    exact ⟨h 1 (by decide), h 2 (by decide)⟩
  digestFailed hactive hstop kind cause hkind herror := by
    have hline := h 3 (by decide)
    rwa [Frame.lines_of_done hactive hstop, Frame.digestLine?_of_error hkind herror] at hline
  digest hactive hstop kind digest hkind herror hdigest := by
    have hline := h 3 (by decide)
    rwa [Frame.lines_of_done hactive hstop, Frame.digestLine?_of_digest hkind herror hdigest]
      at hline
  blank hquiet := by
    have hline := h 3 (by decide)
    cases hactive : e.active with
    | true => rwa [Frame.lines_of_active hactive] at hline
    | false =>
      cases hstop : e.stopped with
      | some reason => rwa [Frame.lines_of_stopped hactive hstop] at hline
      | none =>
        -- a transfer that is complete has no fourth line only when there is no digest to tell of
        have hnone := Frame.digestLine?_eq_none
          ((hquiet.resolve_left (by simp [hactive])).resolve_left (by simp [hstop]))
        rwa [Frame.lines_of_done hactive hstop, hnone] at hline

end TransferBoard
