import TransferBoard.Proofs.Board.Flags
import TransferBoard.Proofs.Screen.Footer

/-!
# What a frame says of the flags

The header has a badge for the flags, and the footer tells what the pause key does next.  The badge
looks first at whether transfers are to end, the footer only at whether they are to wait.  To ask
for the end lifts the pause, and then the two agree.  But the pause key does not look at whether
the end was asked for: it sets the pause again, and from then on the badge tells of the end and
the footer of a pause.

## Main definitions

* `BoardSection.asksToWait` — the section is the pause key.
* `NoPauseAfterEnd` — the pause key is left alone once the end was asked for.
* `Dashboard.Clashes`, `ClashesDuring` — transfers are to wait, and they are to end.
* `Surface.Reads row col text` — the cells of a row read a text from a column on.
* `Frame.Legible s screen` — a screen has room for the badge and for the legend.
* `BoardState.FramesAgree` — header and footer agree in every frame.

## Main results

* `clashesDuring_iff` — the flags clash exactly when the pause key is pressed after the end was
  asked for.
* `Surface.reads_iff` — which words a row reads.
* `reads_paused_iff`, `reads_resume_iff` — what badge and legend read.
* `agree_unless_paused_after_the_end` — when header and footer agree.
* `reads_togglePause` — the first frame in which they do not.
-/

namespace TransferBoard

/-! ### The flags of a run -/

/-- The section is the key that sets the pause, or lifts it. -/
def BoardSection.asksToWait : BoardSection → Bool
  | applyKey key => controlAction? key == some .togglePause
  | _ => false

/-- No section of a list sets the pause after one that asks for the end. -/
def NoPauseAfterEnd (sections : List BoardSection) : Prop :=
  sections.Pairwise fun before sec => before.asksForEnd = true → sec.asksToWait = false

namespace Dashboard

variable {d : Dashboard} {sec : BoardSection}

/-- Transfers are to wait, and they are to end. -/
def Clashes (d : Dashboard) : Prop :=
  d.state.controls.paused = true ∧ d.state.controls.cancelled = true

/-- At some moment of a run transfers are to wait and to end. -/
def ClashesDuring (d : Dashboard) (sections : List BoardSection) : Prop :=
  ∃ past, past <+: sections ∧ (d.run past).Clashes

theorem clashesDuring_nil : d.ClashesDuring [] ↔ d.Clashes := by
  simp [ClashesDuring]

theorem clashesDuring_cons {rest : List BoardSection} :
    d.ClashesDuring (sec :: rest) ↔ d.Clashes ∨ (d.after sec).ClashesDuring rest := by
  constructor
  · rintro ⟨past, hpast, hclash⟩
    rcases List.prefix_cons_iff.mp hpast with rfl | ⟨past, rfl, hrest⟩
    · exact Or.inl hclash
    · exact Or.inr ⟨past, hrest, hclash⟩
  · rintro (hclash | ⟨past, hrest, hclash⟩)
    · exact ⟨[], List.nil_prefix, hclash⟩
    · exact ⟨sec :: past, List.prefix_cons_iff.mpr (Or.inr ⟨past, rfl, hrest⟩), hclash⟩

/-- Where transfers do not have to wait, the pause key makes them wait and nothing else does. -/
theorem paused_after (h : d.state.controls.paused = false) (sec : BoardSection) :
    (d.after sec).state.controls.paused = sec.asksToWait := by
  cases sec with
  | applyKey key =>
    rw [after, (d.flags_applyKey key).1, h, BoardSection.asksToWait]
    split
    · next haction => rw [haction]; rfl
    · next haction => rw [haction]; rfl
    · next haction _ => exact (beq_eq_false_iff_ne.mpr haction).symm
  | teardown =>
    rw [after, teardown]
    split
    · rfl
    · exact h
  | _ => exact (sameFlags_after d rfl).1.trans h

/-- What asks for the end lifts the pause. -/
theorem paused_of_asksForEnd (hd : d.EndsWithSession) (hend : d.isCancelled = false)
    (h : sec.asksForEnd = true) : (d.after sec).state.controls.paused = false := by
  cases sec with
  | applyKey key => rw [after, (d.flags_applyKey key).1, (BoardSection.asksForEnd_applyKey key).mp h]
  | teardown =>
    rw [after, teardown]
    split
    · rfl
    · next hlive => exact absurd (hd (by simpa using hlive)) (by simp [hend])
  | _ => exact absurd h (by simp [BoardSection.asksForEnd])

/-- Only a section that asks for the end sets the flag. -/
theorem isCancelled_after_eq_false (hend : d.isCancelled = false) (h : sec.asksForEnd = false) :
    (d.after sec).isCancelled = false := by
  cases sec with
  | applyKey key =>
    have hkey : controlAction? key ≠ some .cancel := by
      rw [Ne, ← BoardSection.asksForEnd_applyKey, h]
      exact Bool.false_ne_true
    rw [after, isCancelled, (d.flags_applyKey key).2]
    split
    · next haction => exact absurd haction hkey
    · exact hend
  | teardown => exact absurd h (by simp [BoardSection.asksForEnd])
  | _ => exact (sameFlags_after d rfl).isCancelled.trans hend

/-- Once the end was asked for, the flags clash as soon as the pause key is pressed. -/
theorem clashesDuring_of_isCancelled (hend : d.isCancelled = true)
    (hpaused : d.state.controls.paused = false) (sections : List BoardSection) :
    d.ClashesDuring sections ↔ ∃ sec ∈ sections, sec.asksToWait = true := by
  have hnow : ∀ {d : Dashboard}, d.state.controls.paused = false → ¬ d.Clashes :=
    fun hpaused hclash => absurd hclash.1 (by simp [hpaused])
  induction sections generalizing d with
  | nil => simp [clashesDuring_nil, hnow hpaused]
  | cons sec rest ih =>
    have hend' : (d.after sec).isCancelled = true := isCancelled_after hend sec
    have hpaused' : (d.after sec).state.controls.paused = sec.asksToWait :=
      paused_after hpaused sec
    rw [clashesDuring_cons, List.exists_mem_cons_iff, or_iff_right (hnow hpaused)]
    cases hsec : sec.asksToWait with
    | true => simpa using ⟨[], List.nil_prefix, hpaused'.trans hsec, hend'⟩
    | false => simpa using ih hend' (hpaused'.trans hsec)

/-- **The flags clash at some moment exactly when the pause key is pressed after the end was asked
for.** -/
theorem clashesDuring_iff (hd : d.EndsWithSession) (hend : d.isCancelled = false)
    (sections : List BoardSection) : d.ClashesDuring sections ↔ ¬ NoPauseAfterEnd sections := by
  have hnow : ∀ {d : Dashboard}, d.isCancelled = false → ¬ d.Clashes :=
    fun hend hclash => absurd (hclash.2.symm.trans hend) (by simp)
  unfold NoPauseAfterEnd
  induction sections generalizing d with
  | nil => simp [clashesDuring_nil, hnow hend]
  | cons sec rest ih =>
    rw [clashesDuring_cons, or_iff_right (hnow hend), List.pairwise_cons]
    -- up to the first section that asks for the end nothing can clash
    cases hsec : sec.asksForEnd with
    | true =>
      rw [clashesDuring_of_isCancelled (isCancelled_of_asksForEnd hd hsec)
        (paused_of_asksForEnd hd hend hsec)]
      constructor
      · rintro ⟨later, hlater, hwait⟩ ⟨hrest, -⟩
        exact absurd hwait (by simp [hrest later hlater])
      · intro hpair
        by_contra hnone
        have hrest : ∀ later ∈ rest, later.asksToWait = false := fun later hlater =>
          Bool.eq_false_iff.mpr fun hwait => hnone ⟨later, hlater, hwait⟩
        refine hpair ⟨fun later hlater _ => hrest later hlater, ?_⟩
        exact List.pairwise_of_forall_mem_list fun _ _ later hlater _ => hrest later hlater
    | false =>
      refine (ih (endsWithSession_after hd sec) (isCancelled_after_eq_false hend hsec)).trans ?_
      simp

end Dashboard

/-! ### Reading a row -/

/-- The cells of a row from a column on read a text. -/
def Surface.Reads (s : Surface) (row col : Nat) (text : String) : Prop :=
  ∀ i < text.length, s.cell? row (col + i) = text.toList[i]?

/-- **Which words a row reads** where it shows one: those that the shown one starts with. -/
theorem Surface.reads_iff {s : Surface} {row col : Nat} {before word rest text : String}
    (hrow : s.RowShows row col (before ++ (word ++ rest))) (hlength : text.length ≤ word.length)
    (hwidth : col + before.length + text.length ≤ s.width) :
    s.Reads row (col + before.length) text ↔ text.toList <+: word.toList := by
  -- the cells in question are all within the word
  have hcell : ∀ i < text.length, s.cell? row (col + before.length + i) = word.toList[i]? := by
    intro i hi
    have hword : i < word.toList.length := by rw [String.length_toList]; omega
    rw [hrow.2 _ (by omega), overwrite, if_pos (by omega), String.toList_append,
      String.toList_append, Nat.add_assoc, Nat.add_sub_cancel_left, List.getD_eq_getElem?_getD,
      List.getElem?_append_right (by rw [String.length_toList]; omega), String.length_toList,
      Nat.add_sub_cancel_left, List.getElem?_append_left hword,
      List.getElem?_eq_getElem hword]
    rfl
  rw [List.prefix_iff_getElem?]
  constructor
  · intro hreads i hi
    have hi' : i < text.length := String.length_toList ▸ hi
    rw [← hcell i hi', hreads i hi']
    exact List.getElem?_eq_getElem hi
  · intro hprefix i hi
    have hi' : i < text.toList.length := String.length_toList.symm ▸ hi
    rw [hcell i hi, hprefix i hi']
    exact (List.getElem?_eq_getElem hi').symm

/-! ### Badge and legend -/

namespace Frame

/-- The column of the badge. -/
def badgeColumn (s : BoardState) : Nat := margin + (activeText s ++ "   ").length

/-- A screen is large enough for the badge and for what the legend tells of the pause key: both
rows stay, and they are not cut off there. -/
def Legible (s : BoardState) (screen : Surface) : Prop :=
  5 ≤ screen.height ∧ (9 ≤ screen.height ∨ s.entryCount = 0) ∧
    badgeColumn s + "PAUSED".length ≤ screen.width

theorem badge_starts_paused_iff (c : Controls) :
    "PAUSED".toList <+: (badge c).1.toList ↔ c.paused = true ∧ c.cancelled = false := by
  unfold badge
  cases c.cancelled <;> cases c.paused <;> decide

theorem length_badge (c : Controls) : "PAUSED".length ≤ (badge c).1.length := by
  unfold badge
  cases c.cancelled <;> cases c.paused <;> decide

theorem legend_starts_resume_iff (c : Controls) :
    "[p] Resume".toList <+: (legend c).toList ↔ c.paused = true := by
  unfold legend
  cases c.paused <;> decide

theorem length_legend (c : Controls) : "[p] Resume".length ≤ (legend c).length := by
  unfold legend
  cases c.paused <;> decide

end Frame

namespace BoardState

variable {s : BoardState} {screen : Surface}

/-- **The badge reads that transfers are paused** while they are to wait and not to end. -/
theorem reads_paused_iff (h : Frame.Legible s screen) (now : Moment) :
    (s.render screen now).2.2.Reads 1 (Frame.badgeColumn s) "PAUSED" ↔
      s.controls.paused = true ∧ s.controls.cancelled = false := by
  obtain ⟨hheight, -, hwidth⟩ := h
  have hrow := rowShows_status s now hheight
  rw [Frame.statusLine, String.append_assoc] at hrow
  rw [← Frame.badge_starts_paused_iff]
  apply Surface.reads_iff hrow (Frame.length_badge _)
  rw [(s.size_render screen now).1]
  exact hwidth

/-- **The legend offers to go on** while transfers are to wait, whether they are to end or not. -/
theorem reads_resume_iff (h : Frame.Legible s screen) (now : Moment) :
    (s.render screen now).2.2.Reads (screen.height - 1) margin "[p] Resume" ↔
      s.controls.paused = true := by
  obtain ⟨hheight, hroom, hwidth⟩ := h
  have hrow := (rowShows_footer s now hheight hroom).2
  have hlegend : Frame.legend s.controls = "" ++ (Frame.legend s.controls ++ "") := by simp
  rw [hlegend] at hrow
  rw [← Frame.legend_starts_resume_iff]
  apply Surface.reads_iff hrow (Frame.length_legend _)
  rw [(s.size_render screen now).1]
  -- what stands before the badge is longer than what stands before the word
  calc margin + "".length + "[p] Resume".length
      ≤ margin + ("Active: ".length + "   ".length) + "PAUSED".length := by decide
    _ ≤ Frame.badgeColumn s + "PAUSED".length := by
        rw [Frame.badgeColumn, Frame.activeText, String.length_append, String.length_append]
        omega
    _ ≤ screen.width := hwidth

/-- In every frame that can be read, the badge tells of a pause exactly when the legend offers to
go on. -/
def FramesAgree (s : BoardState) : Prop :=
  ∀ screen now, Frame.Legible s screen →
    ((s.render screen now).2.2.Reads 1 (Frame.badgeColumn s) "PAUSED" ↔
      (s.render screen now).2.2.Reads (screen.height - 1) margin "[p] Resume")

/-- Header and footer agree exactly when the flags do. -/
theorem framesAgree_iff (s : BoardState) :
    s.FramesAgree ↔ ¬ (s.controls.paused = true ∧ s.controls.cancelled = true) := by
  constructor
  · rintro hagree ⟨hpaused, hend⟩
    have hlegible : Frame.Legible s (Surface.new (Frame.badgeColumn s + "PAUSED".length) 9) :=
      ⟨(by decide : 5 ≤ 9), Or.inl (Nat.le_refl 9), Nat.le_refl _⟩
    have hframe := hagree _ 0 hlegible
    rw [reads_paused_iff hlegible, reads_resume_iff hlegible] at hframe
    exact absurd hend (by simp [(hframe.mpr hpaused).2])
  · intro hflags screen now hlegible
    rw [reads_paused_iff hlegible, reads_resume_iff hlegible]
    constructor
    · exact And.left
    · intro hpaused
      exact ⟨hpaused, Bool.eq_false_iff.mpr fun hend => hflags ⟨hpaused, hend⟩⟩

end BoardState

namespace Dashboard

/-- **Header and footer agree until the pause is set after the end was asked for.**  At every
moment of a run the badge reads that transfers are paused while they are to wait and not to end,
and the legend offers to go on while they are to wait.  The two flags are never set together, and
header and footer agree in every frame, exactly when no section of the run is the pause key after
one that asks for the end. -/
theorem agree_unless_paused_after_the_end (surface : Surface) (interval : Nat)
    (sections : List BoardSection) :
    let state past := ((fresh surface interval).run past).state
    (∀ past, past <+: sections → ∀ screen now, Frame.Legible (state past) screen →
      let frame := ((state past).render screen now).2.2
      let controls := (state past).controls
      (frame.Reads 1 (Frame.badgeColumn (state past)) "PAUSED" ↔
        controls.paused = true ∧ controls.cancelled = false) ∧
      (frame.Reads (screen.height - 1) margin "[p] Resume" ↔ controls.paused = true)) ∧
    ((∀ past, past <+: sections →
        ¬ ((state past).controls.paused = true ∧ (state past).controls.cancelled = true)) ↔
      NoPauseAfterEnd sections) ∧
    ((∀ past, past <+: sections → (state past).FramesAgree) ↔ NoPauseAfterEnd sections) := by
  intro state
  -- the flags clash at some prefix exactly when a pause comes after the end
  have hflags : (∀ past, past <+: sections →
      ¬ ((state past).controls.paused = true ∧ (state past).controls.cancelled = true)) ↔
        NoPauseAfterEnd sections := by
    have hclash := clashesDuring_iff (d := fresh surface interval)
      (fun hlive => absurd hlive (by simp [fresh])) rfl sections
    rw [← not_iff_not, ← hclash]
    simp [ClashesDuring, Clashes, state]
  refine ⟨?_, hflags, ?_⟩
  · intro past _ screen now hlegible
    exact ⟨BoardState.reads_paused_iff hlegible now, BoardState.reads_resume_iff hlegible now⟩
  · rw [← hflags]
    -- badge and legend are read off the flags, so they agree when these do not clash
    exact forall₂_congr fun past _ => (state past).framesAgree_iff

/-- When the end is asked for during a pause, every frame agrees. -/
theorem end_during_a_pause_agrees :
    let past := [.applyKey (.char 'p'), .redraw true 0, .applyKey .esc]
    NoPauseAfterEnd past ∧ ((fresh (Surface.new 60 12) 0).run past).state.FramesAgree := by
  intro past
  have hpast : NoPauseAfterEnd past := by
    simp [NoPauseAfterEnd, past, BoardSection.asksToWait, controlAction?]
  obtain ⟨-, -, hframes⟩ := agree_unless_paused_after_the_end (Surface.new 60 12) 0 past
  exact ⟨hpast, hframes.mpr hpast past List.prefix_rfl⟩

/-- The frame that follows the pause key, after the end was asked for, does not tell of a pause in
the header and offers to end it in the footer. -/
theorem reads_togglePause {d : Dashboard} (hlive : d.live = true) (hend : d.isCancelled = true)
    (hpaused : d.state.controls.paused = false) (hlegible : Frame.Legible d.state d.surface)
    (now : Moment) :
    (d.togglePause now).Clashes ∧
      ¬ (d.togglePause now).surface.Reads 1 (Frame.badgeColumn d.state) "PAUSED" ∧
      (d.togglePause now).surface.Reads (d.surface.height - 1) margin "[p] Resume" := by
  let s : BoardState := { d.state with controls := d.state.controls.togglePause }
  -- the key changes the flags and draws a frame of what is there then
  have hkey : d.togglePause now = Dashboard.compose { d with state := s } now := by
    have hlive' : ({ d with state := s } : Dashboard).live = true := hlive
    exact redraw_of_live hlive' now
  have hframe : (d.togglePause now).surface = (s.render d.surface now).2.2 := by rw [hkey]; rfl
  have hwaits : s.controls.paused = true := by
    show (!d.state.controls.paused) = true
    rw [hpaused]
    rfl
  have hbadge := BoardState.reads_paused_iff (s := s) hlegible now
  have hlegend := BoardState.reads_resume_iff (s := s) hlegible now
  rw [← hframe] at hbadge hlegend
  refine ⟨?_, ?_, hlegend.mpr hwaits⟩
  · rw [hkey]
    exact ⟨hwaits, hend⟩
  · intro hreads
    exact absurd (hend.symm.trans (hbadge.mp hreads).2) (by simp)

/-- When the end is asked for on a screen of twelve rows and then the pause is set, header and
footer disagree. -/
theorem pause_after_the_end_disagrees :
    let d := ((fresh (Surface.new 60 12) 0).cancel 0).togglePause 0
    d.state.controls.paused = true ∧ d.state.controls.cancelled = true ∧
      ¬ d.surface.Reads 1 14 "PAUSED" ∧ d.surface.Reads 11 2 "[p] Resume" := by
  have hcancel : (fresh (Surface.new 60 12) 0).cancel 0 =
      ((fresh (Surface.new 60 12) 0).applyKey (.char 'c')).2.compose 0 := rfl
  obtain ⟨hwidth, hheight⟩ := size_compose ((fresh (Surface.new 60 12) 0).applyKey (.char 'c')).2 0
  have hcolumn : Frame.badgeColumn ((fresh (Surface.new 60 12) 0).cancel 0).state = 14 := by decide
  have hlegible : Frame.Legible ((fresh (Surface.new 60 12) 0).cancel 0).state
      ((fresh (Surface.new 60 12) 0).cancel 0).surface := by
    rw [Frame.Legible, hcolumn, hcancel, hwidth, hheight]
    decide
  obtain ⟨⟨hpaused, hend⟩, hbadge, hlegend⟩ := reads_togglePause rfl rfl rfl hlegible 0
  rw [hcolumn] at hbadge
  rw [hcancel, hheight] at hlegend
  exact ⟨hpaused, hend, hbadge, hlegend⟩

end Dashboard
end TransferBoard
