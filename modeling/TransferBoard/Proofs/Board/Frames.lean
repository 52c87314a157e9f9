import TransferBoard.Proofs.Board.Sections

/-!
# When a frame is composed

Nothing but a redraw draws, and a redraw draws a whole frame or nothing.  It draws nothing
once the dashboard has been torn down, nor when nothing forces it and the last frame is too
recent.

## Main definitions

* `Dashboard.composes` — a redraw composes a frame.
* `Surface.Shows` — the last thing drawn on a surface is the frame of a state.
* `Dashboard.SameScreen` — nothing is drawn between two dashboards.

## Main results

* `redraw_eq` — a redraw composes a frame or leaves the dashboard.
* `sameScreen_after` — what else is done to the dashboard leaves the screen.
* `shows_compose` — a composed frame is that of the state that it leaves.
-/

namespace TransferBoard

namespace Surface

theorem calls_drawAll (calls : List DrawCall) :
    ∀ s : Surface, (s.drawAll calls).calls = calls.reverse ++ s.calls := by
  induction calls with
  | nil => intro s; rfl
  | cons call calls ih =>
    intro s
    show ((s.draw call).drawAll calls).calls = _
    rw [ih, List.reverse_cons, List.append_assoc]
    rfl

/-- What was drawn is followed by the attempt to show it. -/
theorem calls_present (s : Surface) (calls : List DrawCall) :
    ∃ ending, (ending = .flush ∨ ending = .flushFailed) ∧
      (s.present calls).2.calls = ending :: (calls.reverse ++ s.calls) := by
  rw [present, flush]
  split
  · exact ⟨.flushFailed, .inr rfl, congrArg _ (calls_drawAll calls s)⟩
  · exact ⟨.flush, .inl rfl, congrArg _ (calls_drawAll calls s)⟩

theorem size_drawAll (calls : List DrawCall) :
    ∀ s : Surface, (s.drawAll calls).width = s.width ∧ (s.drawAll calls).height = s.height := by
  induction calls with
  | nil => exact fun _ => ⟨rfl, rfl⟩
  | cons call calls ih => exact fun s => ih (s.draw call)

/-- To draw is not to show. -/
theorem drawAll_showing (s : Surface) (calls : List DrawCall) :
    (s.drawAll calls).flushAttempts = s.flushAttempts ∧
      (s.drawAll calls).flushFault = s.flushFault := by
  induction calls generalizing s with
  | nil => exact ⟨rfl, rfl⟩
  | cons call calls ih => exact ih (s.draw call)

/-- Showing what was drawn is tried once, whether it fails or not. -/
theorem flushAttempts_present (s : Surface) (calls : List DrawCall) :
    (s.present calls).2.flushAttempts = s.flushAttempts + 1 := by
  rw [← (s.drawAll_showing calls).1, present, flush]
  split <;> rfl

theorem size_present (s : Surface) (calls : List DrawCall) :
    (s.present calls).2.width = s.width ∧ (s.present calls).2.height = s.height := by
  rw [present, flush]
  split <;> exact size_drawAll calls s

/-- The last thing drawn on the surface is the frame of the state, at some time; whether
showing it worked makes no difference. -/
def Shows (surface : Surface) (state : BoardState) : Prop :=
  ∃ now ending earlier, (ending = .flush ∨ ending = .flushFailed) ∧
    surface.calls =
      ending :: ((Frame.calls state surface.width surface.height now).reverse ++ earlier)

end Surface

namespace Dashboard

/-- A redraw composes a frame: frames are drawn, and this one is forced or the last one is
not too recent. -/
def composes (d : Dashboard) (forced : Bool) (now : Moment) : Bool :=
  d.live && (forced || !d.tooSoon now)

/-- **A redraw composes a frame or leaves the dashboard.** -/
theorem redraw_eq (d : Dashboard) (forced : Bool) (now : Moment) :
    d.redraw forced now = if d.composes forced now then d.compose now else d := by
  unfold redraw composes
  cases d.live <;> cases forced <;> cases d.tooSoon now <;> rfl

theorem composes_of_live {d : Dashboard} (h : d.live = true) (now : Moment) :
    d.composes true now = true := by
  rw [composes, h]
  rfl

/-- While the dashboard is there, a forced redraw composes a frame. -/
theorem redraw_of_live {d : Dashboard} (h : d.live = true) (now : Moment) :
    d.redraw true now = d.compose now := by
  rw [redraw_eq, if_pos (composes_of_live h now)]

/-- Once the dashboard has been torn down nothing is drawn. -/
theorem redraw_of_not_live {d : Dashboard} (h : d.live = false) (forced : Bool) (now : Moment) :
    d.redraw forced now = d := by
  rw [redraw, h]
  rfl

theorem state_compose (d : Dashboard) (now : Moment) :
    (d.compose now).state = d.state.fitTo (visibleCapacity d.surface.height) := rfl

theorem surface_compose (d : Dashboard) (now : Moment) :
    (d.compose now).surface = (d.surface.present (Frame.calls
      (d.state.fitTo (visibleCapacity d.surface.height)) d.surface.width d.surface.height now)).2 :=
  rfl

theorem size_compose (d : Dashboard) (now : Moment) :
    (d.compose now).surface.width = d.surface.width ∧
      (d.compose now).surface.height = d.surface.height := by
  rw [surface_compose]
  exact d.surface.size_present _

/-- **A composed frame is that of the state that it leaves.** -/
theorem shows_compose (d : Dashboard) (now : Moment) :
    (d.compose now).surface.Shows (d.compose now).state := by
  rw [surface_compose, state_compose]
  generalize d.state.fitTo (visibleCapacity d.surface.height) = state
  obtain ⟨hwidth, hheight⟩ := d.surface.size_present
    (Frame.calls state d.surface.width d.surface.height now)
  obtain ⟨ending, hending, hcalls⟩ := d.surface.calls_present
    (Frame.calls state d.surface.width d.surface.height now)
  refine ⟨now, ending, d.surface.calls, hending, ?_⟩
  rw [hcalls, hwidth, hheight]

/-- What is done between two dashboards leaves the screen, and when it was drawn. -/
def SameScreen (d d' : Dashboard) : Prop :=
  d'.live = d.live ∧ d'.surface = d.surface ∧ d'.lastDraw = d.lastDraw

/-- **Whatever is neither a redraw nor the teardown leaves the screen.** -/
theorem sameScreen_after (d : Dashboard) {sec : BoardSection} (htear : sec ≠ .teardown)
    (hdraw : ∀ forced now, sec ≠ .redraw forced now) : d.SameScreen (d.after sec) := by
  cases sec with
  | redraw forced now => exact absurd rfl (hdraw forced now)
  | teardown => exact absurd rfl htear
  | _ => exact ⟨rfl, rfl, rfl⟩

end Dashboard
end TransferBoard
