import TransferBoard.Proofs.Board.DrawnCalls

/-!
# How close frames follow each other

A frame that is forced is composed at once; one that a producer asks for is left out when it comes
too soon after the last one.  The time of the last frame is one for all: a frame that was forced
counts as much as one that was asked for, and it counts as well when showing it has failed.  So
however producers, keys and prompts share the dashboard, the frames that nothing forces keep their
distance from all frames before them.

## Main definitions

* `Dashboard.Composed` — between two dashboards a whole frame was drawn, and the surface was to
  show it.
* `FrameStamp` — when a frame was composed, and whether it was forced.
* `ScreenMove` — what happens on the dashboard, or on its surface.
* `PacedBoard`, `PacedBoard.run` — the dashboard with the frames so far.
* `PacedBoard.IsDue` — the last frame is no obstacle to the next one.
* `PacedBoard.Paced` — the invariant: the frames keep their distance.

## Main results

* `composed_compose`, `not_composed` — what was composed can be seen on the surface.
* `paced_after`, `paced_run` — every move keeps the invariant.
* `draws_iff_due` — when a frame that nothing forces is composed.
* `count_unforced_le` — a short time has room for one such frame.
* `frames_are_paced` — what holds after any moves.
-/

namespace TransferBoard

/-! ### Composing a frame -/

namespace Dashboard

variable {d : Dashboard} {now : Moment}

/-- At the given time a whole frame was drawn on the surface, which was to show it, and the
dashboard remembers when.  Whether showing it worked makes no difference. -/
def Composed (d d' : Dashboard) (now : Moment) : Prop :=
  d'.lastDraw = some now ∧ d'.surface = (d.surface.present (Frame.calls d'.state
    d.surface.width d.surface.height now)).2

theorem composed_compose (d : Dashboard) (now : Moment) : d.Composed (d.compose now) now := by
  refine ⟨rfl, ?_⟩
  rw [state_compose]
  exact surface_compose d now

/-- A dashboard on which nothing happens has no new frame on it. -/
theorem not_composed (d : Dashboard) (now : Moment) : ¬ d.Composed d now := by
  rintro ⟨-, hsurface⟩
  have hattempts := congrArg Surface.flushAttempts hsurface
  rw [Surface.flushAttempts_present] at hattempts
  omega

/-- A change that leaves the screen is shown by a forced redraw. -/
theorem composed_redraw (hlive : d.live = true) {d' : Dashboard} (h : d.SameScreen d')
    (now : Moment) : d.Composed (d'.redraw true now) now := by
  rw [redraw_of_live (h.1.trans hlive), Composed, ← h.2.1]
  exact d'.composed_compose now

/-- A frame is composed exactly when the surface is to show something once more. -/
theorem flushAttempts_redraw (d : Dashboard) (forced : Bool) (now : Moment) :
    (d.redraw forced now).surface.flushAttempts ≠ d.surface.flushAttempts ↔
      d.composes forced now = true := by
  rw [redraw_eq]
  split
  · next hcomposes =>
    rw [surface_compose, Surface.flushAttempts_present]
    simp [hcomposes]
  · next hcomposes => simp [hcomposes]

theorem redrawInterval_after (d : Dashboard) (sec : BoardSection) :
    (d.after sec).redrawInterval = d.redrawInterval := by
  cases sec with
  | redraw forced now =>
    rw [after, redraw_eq]
    split <;> rfl
  | teardown =>
    rw [after, teardown]
    split <;> rfl
  | _ => rfl

/-- What is to be seen is shown at once: a transfer that is announced or complete, a key that
changes anything, and what is told of an entry that is there.  The other keys and handles leave the
dashboard as it is. -/
structure DrawsAtOnce (d : Dashboard) (now : Moment) : Prop where
  /-- A transfer is announced. -/
  create : ∀ r, d.Composed (d.create r now).2 now
  /-- A transfer is complete. -/
  finish : ∀ h, d.Composed (d.finish h now) now
  /-- A key takes its effect. -/
  pressKey : ∀ key, if (d.pressKey key now).1 then d.Composed (d.pressKey key now).2 now
    else (d.pressKey key now).2 = d
  /-- A transfer is given up. -/
  stop : ∀ h reason, if (d.entry? h).isSome then d.Composed (d.stop h reason now) now
    else d.stop h reason now = d
  /-- The outcome of a digest calculation is there. -/
  showDigest : ∀ h result, if (d.entry? h).isSome then d.Composed (d.showDigest h result now) now
    else d.showDigest h result now = d

theorem drawsAtOnce_of_live (hlive : d.live = true) (now : Moment) : d.DrawsAtOnce now where
  -- each request changes the state first, and draws the screen that it found
  create r := by
    have hscreen : d.SameScreen (d.track r now).2 := ⟨rfl, rfl, rfl⟩
    exact composed_redraw hlive hscreen now
  finish h := by
    have hscreen : d.SameScreen (d.markFinished h) := ⟨rfl, rfl, rfl⟩
    exact composed_redraw hlive hscreen now
  pressKey key := by
    have hflag : (d.pressKey key now).1 = (d.applyKey key).1 := rfl
    have hboard : (d.pressKey key now).2 = if (d.applyKey key).1 then
      (d.applyKey key).2.redraw true now else (d.applyKey key).2 := rfl
    have hscreen : d.SameScreen (d.applyKey key).2 := ⟨rfl, rfl, rfl⟩
    rw [hflag, hboard]
    split
    · exact composed_redraw hlive hscreen now
    · next hkey => exact applyKey_of_unchanged (Bool.eq_false_iff.mpr hkey)
  stop h reason := by
    have hscreen : d.SameScreen (d.markStopped h reason) := ⟨rfl, rfl, rfl⟩
    unfold Dashboard.stop
    split
    · exact composed_redraw hlive hscreen now
    · rfl
  showDigest h result := by
    have hscreen : d.SameScreen (d.settleDigest h result) := ⟨rfl, rfl, rfl⟩
    unfold Dashboard.showDigest
    split
    · exact composed_redraw hlive hscreen now
    · rfl

end Dashboard

/-! ### The frames of a run -/

/-- When a frame was composed, and whether something had forced it. -/
structure FrameStamp where
  /-- The time of the frame. -/
  time : Moment
  /-- The frame was to be composed at once. -/
  forced : Bool
  deriving DecidableEq, Repr

/-- A frame that nothing forced, composed from one moment to another. -/
def FrameStamp.unforcedIn (start stop : Moment) (f : FrameStamp) : Bool :=
  !f.forced && decide (start ≤ f.time) && decide (f.time ≤ stop)

theorem FrameStamp.unforcedIn_iff {start stop : Moment} {f : FrameStamp} :
    f.unforcedIn start stop = true ↔ f.forced = false ∧ start ≤ f.time ∧ f.time ≤ stop := by
  simp [unforcedIn, and_assoc]

/-- What happens on the dashboard, or on its surface. -/
inductive ScreenMove where
  /-- Someone does something to the dashboard. -/
  | produce (sec : BoardSection)
  /-- Something else is drawn on the surface, or its size changes. -/
  | overlay (change : Surface → Surface)

/-- When a move looks at the time for a frame. -/
def ScreenMove.time? : ScreenMove → Option Moment
  | produce (.redraw _ now) => some now
  | _ => none

/-- A dashboard with the frames that were composed so far. -/
structure PacedBoard where
  /-- The dashboard. -/
  board : Dashboard
  /-- The frames, the first one first. -/
  frames : List FrameStamp := []

namespace PacedBoard

/-- The state is shown, which is noted when the surface was to show something once more. -/
def redraw (p : PacedBoard) (forced : Bool) (now : Moment) : PacedBoard :=
  { board := p.board.redraw forced now
    frames :=
      if (p.board.redraw forced now).surface.flushAttempts ≠ p.board.surface.flushAttempts then
        p.frames ++ [⟨now, forced⟩]
      else p.frames }

/-- What a move does. -/
def after (p : PacedBoard) : ScreenMove → PacedBoard
  | .produce (.redraw forced now) => p.redraw forced now
  | .produce sec => { p with board := p.board.after sec }
  | .overlay change => { p with board := { p.board with surface := change p.board.surface } }

/-- What a list of moves does. -/
def run (p : PacedBoard) (moves : List ScreenMove) : PacedBoard := moves.foldl after p

/-- The last frame is no obstacle to the next one: frames need no distance, there is none, or it is
long enough ago. -/
def IsDue (p : PacedBoard) (now : Moment) : Prop :=
  p.board.redrawInterval = 0 ∨ p.frames = [] ∨
    ∃ last, p.frames.getLast? = some last ∧ last.time + p.board.redrawInterval ≤ now

/-- **The frames keep their distance**: a frame that nothing forces comes long enough after every
frame before it. -/
structure Paced (p : PacedBoard) : Prop where
  /-- The dashboard has not been torn down. -/
  live : p.board.live = true
  /-- The dashboard remembers the time of the last frame. -/
  last : p.board.lastDraw = p.frames.getLast?.map FrameStamp.time
  /-- Each frame is forced, or comes long enough after those before it. -/
  apart : p.frames.Pairwise fun f g =>
    f.time ≤ g.time ∧ (g.forced = false → f.time + p.board.redrawInterval ≤ g.time)

variable {p : PacedBoard} {now : Moment}

theorem paced_fresh (surface : Surface) (interval : Nat) :
    Paced { board := Dashboard.fresh surface interval } :=
  ⟨rfl, rfl, List.Pairwise.nil⟩

/-- A frame that nothing forces is composed when it is due. -/
theorem Paced.composes_iff (h : p.Paced) (now : Moment) :
    p.board.composes false now = true ↔ p.IsDue now := by
  rw [Dashboard.composes, h.live, Dashboard.tooSoon, h.last, IsDue]
  cases hlast : p.frames.getLast? with
  | none => simp [List.getLast?_eq_none_iff.mp hlast]
  | some last =>
    have hne : p.frames ≠ [] := by
      intro hnil
      simp [hnil] at hlast
    have htime : ¬ now - last.time < p.board.redrawInterval ↔
        p.board.redrawInterval = 0 ∨ last.time + p.board.redrawInterval ≤ now := by
      unfold Moment at *
      omega
    simpa [hne] using htime

/-- A redraw adds a frame, or changes nothing. -/
theorem redraw_eq (p : PacedBoard) (forced : Bool) (now : Moment) :
    p.redraw forced now = if p.board.composes forced now then
      ⟨p.board.compose now, p.frames ++ [⟨now, forced⟩]⟩ else p := by
  have hattempts := p.board.flushAttempts_redraw forced now
  unfold redraw
  by_cases hcomposes : p.board.composes forced now = true
  · rw [if_pos (hattempts.mpr hcomposes), if_pos hcomposes, p.board.redraw_eq, if_pos hcomposes]
  · rw [if_neg (fun h => hcomposes (hattempts.mp h)), if_neg hcomposes, p.board.redraw_eq,
      if_neg hcomposes]

/-! ### The frames keep their distance -/

theorem Paced.time_le_last (h : p.Paced) {f last : FrameStamp} (hf : f ∈ p.frames)
    (hlast : p.frames.getLast? = some last) : f.time ≤ last.time := by
  obtain ⟨earlier, hframes⟩ := List.getLast?_eq_some_iff.mp hlast
  have hapart := h.apart
  rw [hframes, List.pairwise_append] at hapart
  rw [hframes, List.mem_append, List.mem_singleton] at hf
  rcases hf with hearlier | rfl
  · exact (hapart.2.2 f hearlier last (List.mem_singleton_self last)).1
  · exact Nat.le_refl _

theorem paced_redraw (h : p.Paced) (forced : Bool) (htime : ∀ f ∈ p.frames, f.time ≤ now) :
    (p.redraw forced now).Paced := by
  rw [redraw_eq]
  split
  · next hcomposes =>
    refine ⟨h.live, ?_, ?_⟩
    · rw [List.getLast?_append, List.getLast?_singleton]
      rfl
    · rw [List.pairwise_append]
      refine ⟨h.apart, List.pairwise_singleton _ _, ?_⟩
      intro f hf g hg
      obtain rfl := List.mem_singleton.mp hg
      refine ⟨htime f hf, ?_⟩
      rintro rfl
      show f.time + p.board.redrawInterval ≤ now
      rcases (h.composes_iff now).mp hcomposes with hzero | hnil | ⟨last, hlast, hdue⟩
      · rw [hzero]
        exact htime f hf
      · simp [hnil] at hf
      · -- the last frame is the closest one
        have hclosest := h.time_le_last hf hlast
        exact Nat.le_trans (Nat.add_le_add_right hclosest _) hdue
  · exact h

/-- **Every move keeps the distance**, when it does not go back in time. -/
theorem paced_after (h : p.Paced) {move : ScreenMove} (hlive : move ≠ .produce .teardown)
    (htime : ∀ now ∈ move.time?, ∀ f ∈ p.frames, f.time ≤ now) : (p.after move).Paced := by
  cases move with
  | overlay change => exact ⟨h.live, h.last, h.apart⟩
  | produce sec =>
    cases sec with
    | redraw forced now => exact paced_redraw h forced (htime now rfl)
    | teardown => exact absurd rfl hlive
    | _ => exact ⟨h.live, h.last, h.apart⟩

theorem mem_frames_after {move : ScreenMove} {f : FrameStamp} (hf : f ∈ (p.after move).frames) :
    f ∈ p.frames ∨ move.time? = some f.time := by
  cases move with
  | overlay change => exact Or.inl hf
  | produce sec =>
    cases sec with
    | redraw forced now =>
      rw [after, redraw_eq] at hf
      split at hf
      · rcases List.mem_append.mp hf with hf | hf
        · exact Or.inl hf
        · obtain rfl := List.mem_singleton.mp hf
          exact Or.inr rfl
      · exact Or.inl hf
    | _ => exact Or.inl hf

/-- What holds after any moves whose times never go back. -/
theorem paced_run (h : p.Paced) {moves : List ScreenMove} (hlive : .produce .teardown ∉ moves)
    (htimes : (moves.filterMap ScreenMove.time?).Pairwise (· ≤ ·))
    (hpast : ∀ f ∈ p.frames, ∀ now ∈ moves.filterMap ScreenMove.time?, f.time ≤ now) :
    (p.run moves).Paced := by
  induction moves generalizing p with
  | nil => exact h
  | cons move rest ih =>
    have hsub : (rest.filterMap ScreenMove.time?) ⊆
        ((move :: rest).filterMap ScreenMove.time?) := by
      intro now hnow
      rw [List.mem_filterMap] at hnow ⊢
      obtain ⟨later, hlater, htime⟩ := hnow
      exact ⟨later, List.mem_cons_of_mem _ hlater, htime⟩
    have hmove : ∀ now ∈ move.time?, now ∈ (move :: rest).filterMap ScreenMove.time? :=
      fun now hnow => List.mem_filterMap.mpr ⟨move, List.mem_cons_self, hnow⟩
    -- the times of the rest are not before the time of this move, if it has one
    rw [List.pairwise_filterMap, List.pairwise_cons, ← List.pairwise_filterMap] at htimes
    have hne : move ≠ .produce .teardown := fun heq => hlive (heq ▸ List.mem_cons_self)
    apply ih (paced_after h hne fun now hnow f hf => hpast f hf now (hmove now hnow))
      (fun hmem => hlive (List.mem_cons_of_mem _ hmem)) htimes.2
    intro f hf now hnow
    rcases mem_frames_after hf with hf | hf
    · exact hpast f hf now (hsub hnow)
    · obtain ⟨later, hlater, htime⟩ := List.mem_filterMap.mp hnow
      exact htimes.1 later hlater f.time hf now htime

theorem board_after_produce (p : PacedBoard) (sec : BoardSection) :
    (p.after (.produce sec)).board = p.board.after sec := by
  cases sec <;> rfl

theorem redrawInterval_run (p : PacedBoard) (moves : List ScreenMove) :
    (p.run moves).board.redrawInterval = p.board.redrawInterval := by
  induction moves generalizing p with
  | nil => rfl
  | cons move rest ih =>
    refine (ih (p.after move)).trans ?_
    cases move with
    | overlay change => rfl
    | produce sec =>
      rw [board_after_produce]
      exact p.board.redrawInterval_after sec

/-- **A frame that nothing forces is composed exactly when it is due**, and otherwise nothing
happens. -/
theorem draws_iff_due (h : p.Paced) (now : Moment) :
    (p.board.Composed (p.board.draw now) now ↔ p.IsDue now) ∧
      (¬ p.IsDue now → p.board.draw now = p.board) := by
  rw [← h.composes_iff, Dashboard.draw, Dashboard.redraw_eq]
  split
  · next hcomposes => simp [hcomposes, Dashboard.composed_compose]
  · next hcomposes => simp [hcomposes, Dashboard.not_composed]

/-- Of two frames that follow each other closely, the later one was forced. -/
theorem Paced.forced_of_close (h : p.Paced) {i : Nat} {f g : FrameStamp}
    (hf : p.frames[i]? = some f) (hg : p.frames[i + 1]? = some g)
    (hclose : g.time < f.time + p.board.redrawInterval) : g.forced = true := by
  obtain ⟨hi, rfl⟩ := List.getElem?_eq_some_iff.mp hf
  obtain ⟨hi', rfl⟩ := List.getElem?_eq_some_iff.mp hg
  have hapart := List.pairwise_iff_getElem.mp h.apart i (i + 1) hi hi' (Nat.lt_succ_self i)
  by_contra hforced
  exact absurd hclose (Nat.not_lt.mpr (hapart.2 (Bool.eq_false_iff.mpr hforced)))

/-- **A short time has room for one frame that nothing forces.** -/
theorem Paced.length_unforced_le (h : p.Paced) {start stop : Moment}
    (hshort : stop < start + p.board.redrawInterval) :
    (p.frames.filter (FrameStamp.unforcedIn start stop)).length ≤ 1 := by
  have hapart := h.apart.filter (FrameStamp.unforcedIn start stop)
  have hmem : ∀ f ∈ p.frames.filter (FrameStamp.unforcedIn start stop),
      f.unforcedIn start stop = true := fun f hf => (List.mem_filter.mp hf).2
  generalize p.frames.filter (FrameStamp.unforcedIn start stop) = found at hapart hmem ⊢
  match found with
  | [] => exact Nat.zero_le 1
  | [f] => exact Nat.le_refl 1
  | f :: g :: rest =>
    obtain ⟨-, hstart, -⟩ := FrameStamp.unforcedIn_iff.mp (hmem f (by simp))
    obtain ⟨hforced, -, hstop⟩ := FrameStamp.unforcedIn_iff.mp (hmem g (by simp))
    have hfar := ((List.pairwise_cons.mp hapart).1 g (by simp)).2 hforced
    have hlong : start + p.board.redrawInterval ≤ stop :=
      calc start + p.board.redrawInterval
          ≤ f.time + p.board.redrawInterval := Nat.add_le_add_right hstart _
        _ ≤ g.time := hfar
        _ ≤ stop := hstop
    exact absurd hshort (Nat.not_lt.mpr hlong)

/-- A frame is noted exactly when one is composed. -/
theorem noted_iff_composed (p : PacedBoard) (forced : Bool) (now : Moment) :
    (p.redraw forced now).frames = p.frames ++ [⟨now, forced⟩] ↔
      p.board.Composed (p.board.redraw forced now) now := by
  rw [redraw_eq, Dashboard.redraw_eq]
  split
  · simp [Dashboard.composed_compose]
  · simp [Dashboard.not_composed]

/-- **Frames are neither too close nor left out.**  Let anything happen on a dashboard that is not
torn down, and on its surface, on which showing a frame may fail, with times that never go back.
Then at every moment a frame is composed at once of what is created or finished, of a key that
changes anything, and of what is told of an entry that is there.  One that is only asked for is
composed exactly when it is due: frames need no distance, there was none, or the last one is long
enough ago.  So of two frames that follow each other too closely the later one was forced, and
less than the interval has room for one frame that was only asked for. -/
theorem frames_are_paced (surface : Surface) (interval : Nat) {moves : List ScreenMove}
    (hlive : .produce .teardown ∉ moves)
    (htimes : (moves.filterMap ScreenMove.time?).Pairwise (· ≤ ·)) :
    let p := PacedBoard.run { board := Dashboard.fresh surface interval } moves
    p.board.redrawInterval = interval ∧
    (∀ now, p.board.DrawsAtOnce now) ∧
    (∀ now, (p.board.Composed (p.board.draw now) now ↔ p.IsDue now) ∧
      (¬ p.IsDue now → p.board.draw now = p.board)) ∧
    (∀ forced now, (p.redraw forced now).frames = p.frames ++ [⟨now, forced⟩] ↔
      p.board.Composed (p.board.redraw forced now) now) ∧
    (∀ (i : Nat) (f g : FrameStamp), p.frames[i]? = some f → p.frames[i + 1]? = some g →
      g.time < f.time + interval → g.forced = true) ∧
    (∀ start stop, stop < start + interval →
      (p.frames.filter (FrameStamp.unforcedIn start stop)).length ≤ 1) := by
  intro p
  have hpaced : p.Paced := paced_run (paced_fresh surface interval) hlive htimes (by simp)
  have hinterval : p.board.redrawInterval = interval := redrawInterval_run _ moves
  refine ⟨hinterval, Dashboard.drawsAtOnce_of_live hpaced.live, draws_iff_due hpaced,
    noted_iff_composed p, ?_, ?_⟩
  · intro i f g hf hg hclose
    exact hpaced.forced_of_close hf hg (hinterval.symm ▸ hclose)
  · intro start stop hshort
    exact hpaced.length_unforced_le (hinterval.symm ▸ hshort)

/-- Where no frame can be shown, a frame counts all the same: one that is asked for after nine of
ten units of time is left out, and one after ten is composed. -/
theorem failed_frames_are_paced :
    let surface := { Surface.new 20 6 with flushFault := fun _ => some .notFound }
    let moves : List ScreenMove := [.produce (.track { name := "a" } 0),
      .produce (.redraw true 0), .overlay fun s => s.put 0 0 "?" .plain, .produce (.redraw false 9)]
    let p := PacedBoard.run { board := Dashboard.fresh surface 10 } moves
    .produce .teardown ∉ moves ∧ (moves.filterMap ScreenMove.time?).Pairwise (· ≤ ·) ∧
      p.frames = [⟨0, true⟩] ∧ p.board.Composed (p.board.draw 10) 10 := by
  intro surface moves p
  have hlive : .produce .teardown ∉ moves := by simp [moves]
  have htimes : (moves.filterMap ScreenMove.time?).Pairwise (· ≤ ·) := by decide
  have hframes : p.frames = [⟨0, true⟩] := by decide
  obtain ⟨hinterval, -, hdraws, -⟩ := frames_are_paced surface 10 hlive htimes
  refine ⟨hlive, htimes, hframes, (hdraws 10).1.mpr (Or.inr (Or.inr ⟨⟨0, true⟩, ?_, ?_⟩))⟩
  · rw [hframes]
    rfl
  · exact Nat.le_of_eq ((Nat.zero_add _).trans hinterval)

end PacedBoard
end TransferBoard
