import TransferBoard.Proofs.Board.DrawnCalls

/-!
# Nothing that changes stays off the screen

A change may be undrawn while other threads have the lock, but then there is still a call that
is going to draw it.  So when no call is between a change and its frame, the last frame shows
everything but what producers tell without a frame.

## Main definitions

* `WatchedBoard.InView` — the invariant: when all is settled, the last frame shows the outline.

## Main results

* `inView_step`, `inView_run` — every step keeps the invariant.
* `returned_step` — a call that returns without a frame has changed nothing.
* `screen_shows_the_outline` — what is on the screen at every moment at which all is settled.
-/

namespace TransferBoard
namespace WatchedBoard

variable {s : WatchedBoard} {k : Nat}

/-! ### The invariant -/

/-- When all is settled the last frame shows the outline of the state; and a frame has been
drawn as soon as a call has come that far. -/
structure InView (s : WatchedBoard) : Prop where
  /-- The dashboard has not been torn down. -/
  live : s.board.live = true
  /-- When all is settled the outline is that of the last frame, and of the empty state before
  the first one. -/
  current : s.Settled → (s.frame.getD {}).outline = s.board.state.outline
  /-- The last frame is on the screen. -/
  drawn : ∀ f, s.frame = some f → s.board.surface.Shows f
  /-- The dashboard knows whether there was a frame. -/
  timed : s.board.lastDraw.isSome = s.frame.isSome
  /-- A call that has drawn has drawn a frame. -/
  returned : ∀ c, (c, true) ∈ s.returned → s.frame.isSome = true
  /-- A call that has come to its digest has drawn a frame. -/
  begun : ∀ stage ∈ s.threads, stage.hasDrawn = true → s.frame.isSome = true

theorem inView_start (surface : Surface) (interval : Nat) (threads : Nat) :
    (start (Dashboard.fresh surface interval) threads).InView where
  live := rfl
  current _ := rfl
  drawn _ h := absurd h (by simp [start])
  timed := rfl
  returned _ h := absurd h (by simp [start])
  begun stage hstage hdrawn := by
    rw [List.eq_of_mem_replicate hstage] at hdrawn
    exact absurd hdrawn (by simp [CallStage.hasDrawn])

/-- A thread that does not owe a frame goes on: what is settled then was settled before. -/
theorem Settled.of_goTo {stage stage' : CallStage} (hk : s.threads[k]? = some stage)
    (howes : stage.owesFrame = false) (h : (s.goTo k stage').Settled) : s.Settled := by
  intro other hother
  obtain ⟨j, hj⟩ := List.mem_iff_getElem?.mp hother
  by_cases hjk : j = k
  · subst hjk
    rwa [← Option.some.inj (hk.symm.trans hj)]
  · refine h other (List.mem_iff_getElem?.mpr ⟨j, ?_⟩)
    rwa [goTo, List.getElem?_set_ne (Ne.symm hjk)]

/-- A redraw that composes a frame shows the state as it leaves it. -/
theorem frame_redraw_of_live (h : s.board.live = true) (now : Moment) :
    (s.redraw true now).frame = some (s.redraw true now).board.state := by
  rw [redraw, if_pos (Dashboard.composes_of_live h now)]

theorem inView_redraw (h : s.InView) (forced : Bool) (now : Moment) :
    (s.redraw forced now).InView := by
  have hredraw := s.board.redraw_eq forced now
  -- either nothing happens, or a new frame shows the state as it is
  cases hcomposes : s.board.composes forced now with
  | false =>
    have hsame : s.redraw forced now = s := by
      simp only [redraw, hredraw, hcomposes, Bool.false_eq_true, if_false]
    rwa [hsame]
  | true =>
    have hdrawn : s.redraw forced now =
        { s with board := s.board.compose now, frame := some (s.board.compose now).state } := by
      simp only [redraw, hredraw, hcomposes, if_true]
    rw [hdrawn]
    exact
      { live := h.live
        current := fun _ => rfl
        drawn := fun f hf => Option.some.inj hf ▸ s.board.shows_compose now
        timed := rfl
        returned := fun _ _ => rfl
        begun := fun _ _ _ => rfl }

/-- A thread goes on. -/
theorem InView.goTo (h : s.InView) {stage' : CallStage}
    (hdrawn : stage'.hasDrawn = true → s.frame.isSome = true)
    (hcurrent : (s.goTo k stage').Settled → (s.frame.getD {}).outline = s.board.state.outline) :
    (s.goTo k stage').InView where
  live := h.live
  current := hcurrent
  drawn := h.drawn
  timed := h.timed
  returned := h.returned
  begun stage hstage hbegun := by
    rcases List.mem_or_eq_of_mem_set hstage with hmem | rfl
    · exact h.begun stage hmem hbegun
    · exact hdrawn hbegun

/-- A call returns. -/
theorem InView.leave (h : s.InView) {c : BoardCall} {drawn : Bool}
    (hdrawn : drawn = true → s.frame.isSome = true)
    (hcurrent : (s.goTo k .free).Settled → (s.frame.getD {}).outline = s.board.state.outline) :
    (s.leave k c drawn).InView := by
  have hgone : (s.goTo k .free).InView := h.goTo (by simp [CallStage.hasDrawn]) hcurrent
  exact
    { hgone with
      returned := by
        intro c' hc'
        rcases List.mem_cons.mp hc' with heq | hmem
        · exact hdrawn (Prod.mk.inj heq).2.symm
        · exact h.returned c' hmem }

/-- A thread changes the dashboard, and owes a frame for that. -/
theorem InView.change (h : s.InView) {d : Dashboard} (hscreen : s.board.SameScreen d)
    {stage stage' : CallStage} (hk : s.threads[k]? = some stage) (howes : stage'.owesFrame = true)
    (hdrawn : stage'.hasDrawn = true → s.frame.isSome = true) :
    ((s.withBoard d).goTo k stage').InView := by
  obtain ⟨hlive, hsurface, hlast⟩ := hscreen
  obtain ⟨hlt, -⟩ := List.getElem?_eq_some_iff.mp hk
  exact
    { live := hlive.trans h.live
      current := fun hsettled => by
        have hfalse := hsettled stage' (List.mem_iff_getElem?.mpr ⟨k, List.getElem?_set_self hlt⟩)
        exact absurd (howes.symm.trans hfalse) (by simp)
      drawn := fun f hf => hsurface ▸ h.drawn f hf
      timed := hlast ▸ h.timed
      returned := h.returned
      begun := by
        intro stage hstage hbegun
        rcases List.mem_or_eq_of_mem_set hstage with hmem | rfl
        · exact h.begun stage hmem hbegun
        · exact hdrawn hbegun }

/-- **A step of a thread keeps the screen in view.** -/
theorem inView_step (h : s.InView) (k : Nat) (now : Moment) (digester : Digester) :
    (s.step k now digester).InView := by
  have hredrawn := inView_redraw h true now
  have hframe := frame_redraw_of_live h.live now
  have hshown : (s.redraw true now).frame.isSome = true := by rw [hframe]; rfl
  -- a frame has just been drawn, so it is the present one
  have hpresent : ((s.redraw true now).frame.getD {}).outline =
      (s.redraw true now).board.state.outline := by rw [hframe]; rfl
  unfold step
  split
  · next c hk =>
    split
    · next board hfirst =>
      have hscreen := c.sameScreen_first s.board now
      rw [hfirst] at hscreen
      exact h.change hscreen hk rfl (by simp [CallStage.hasDrawn])
    · next board hfirst =>
      have hsame := (BoardCall.first_of_undrawn (congrArg Prod.fst hfirst)).2
      rw [hfirst] at hsame
      subst hsame
      exact h.leave (by simp) fun hsettled => h.current (hsettled.of_goTo hk rfl)
  · next hd hk => exact hredrawn.goTo (fun _ => hshown) fun _ => hpresent
  · next c hk _ => exact hredrawn.leave (fun _ => hshown) fun _ => hpresent
  · next hd hk =>
    have hbegun := h.begun _ (List.mem_iff_getElem?.mpr ⟨k, hk⟩) rfl
    split
    · exact h.goTo (fun _ => hbegun) fun hsettled => h.current (hsettled.of_goTo hk rfl)
    · exact h.leave (fun _ => hbegun) fun hsettled => h.current (hsettled.of_goTo hk rfl)
  · next hd kind path hk =>
    have hbegun := h.begun _ (List.mem_iff_getElem?.mpr ⟨k, hk⟩) rfl
    split
    · have hscreen : s.board.SameScreen (s.board.after (.settleDigest hd (digester kind path))) :=
        s.board.sameScreen_after BoardSection.noConfusion fun _ _ => BoardSection.noConfusion
      exact h.change hscreen hk rfl fun _ => hbegun
    · exact h.leave (fun _ => hbegun) fun hsettled => h.current (hsettled.of_goTo hk rfl)
  · next hd hk => exact hredrawn.leave (fun _ => hshown) fun _ => hpresent
  · exact h

theorem inView_after (h : s.InView) (move : CallMove) : (s.after move).InView := by
  unfold after
  split
  · next k c =>
    split
    · next stage hk =>
      split
      · next hfree =>
        -- a thread that is free owes no frame, so nothing is unsettled before the call
        have howes : stage.owesFrame = false := by
          cases stage <;> first | rfl | exact absurd hfree (by simp [CallStage.isFree])
        exact h.goTo (by simp [CallStage.hasDrawn])
          fun hsettled => h.current (hsettled.of_goTo hk howes)
      · exact h
    · exact h
  · next k now digester => exact inView_step h k now digester
  · next forced now => exact inView_redraw h forced now
  · next sec hsec =>
    split
    · next hkeeps =>
      -- a section that keeps the outline keeps the frame a true one
      obtain ⟨houtline, hlive, hsurface, hlast⟩ := s.board.outline_after hkeeps
      exact
        { live := hlive.trans h.live
          current := fun hsettled => (h.current hsettled).trans houtline.symm
          drawn := fun f hf => hsurface ▸ h.drawn f hf
          timed := hlast ▸ h.timed
          returned := h.returned
          begun := h.begun }
    · exact h

/-- **Whatever happens, the screen stays in view.** -/
theorem inView_run (h : s.InView) (moves : List CallMove) : (s.run moves).InView := by
  induction moves generalizing s with
  | nil => exact h
  | cons move moves ih => exact ih (inView_after h move)

/-! ### What is on the screen -/

/-- A call that returns without a frame has found nothing to change, and has changed nothing. -/
theorem returned_step {k : Nat} {now : Moment} {digester : Digester} {c : BoardCall}
    (hreturned : (c, false) ∈ (s.step k now digester).returned) :
    (c, false) ∈ s.returned ∨ c.FindsNothing s.board ∧ (s.step k now digester).board = s.board := by
  -- a call that has drawn is none of those
  have hother : ∀ {c' : BoardCall}, (c, false) ∈ (c', true) :: s.returned →
      (c, false) ∈ s.returned := by
    intro c' hmem
    rcases List.mem_cons.mp hmem with heq | hmem
    · exact absurd (Prod.mk.inj heq).2 (by simp)
    · exact hmem
  have hboard : ∀ {c' d}, s.threads[k]? = some (.starting c') →
      c'.first s.board now = (false, d) → (s.step k now digester).board = d := by
    intro c' d hk hfirst
    simp only [step, hk, hfirst]
    rfl
  unfold step at hreturned
  split at hreturned
  · next c' hk =>
    split at hreturned
    · exact .inl hreturned
    · next d hfirst =>
      rcases List.mem_cons.mp hreturned with heq | hmem
      · obtain rfl := (Prod.mk.inj heq).1
        obtain ⟨hnothing, hsame⟩ := BoardCall.first_of_undrawn (congrArg Prod.fst hfirst)
        rw [hfirst] at hsame
        exact .inr ⟨hnothing, (hboard hk hfirst).trans hsame⟩
      · exact .inl hmem
  · exact .inl hreturned
  · exact .inl (hother hreturned)
  · split at hreturned
    · exact .inl hreturned
    · exact .inl (hother hreturned)
  · split at hreturned
    · exact .inl hreturned
    · exact .inl (hother hreturned)
  · exact .inl (hother hreturned)
  · exact .inl hreturned

/-- **No change stays off the screen.**  Any number of threads announce, finish and give up
transfers, calculate digests and press keys, in any order of their sections, on a dashboard on
which nothing has happened and which nobody tears down; meanwhile producers tell bytes, files
and completed files, and the state is shown whenever somebody likes.  At every moment:

* the last frame is on the screen, and when no call is between a change and its frame, the
  state that it has left is the present one, but for bytes, running times, files and completed
  files;
* without a frame, when no call is between a change and its frame, the state is the empty one,
  but for these;
* there has been a frame as soon as one of the calls has returned from drawing;
* a call that returns without drawing has found nothing to change — its handle finds no entry
  to give up, or its key has no effect — and has changed nothing. -/
theorem screen_shows_the_outline (surface : Surface) (interval threads : Nat)
    (moves : List CallMove) :
    let s := (start (Dashboard.fresh surface interval) threads).run moves
    (∀ f, s.frame = some f → s.board.surface.Shows f ∧
      (s.Settled → f.outline = s.board.state.outline)) ∧
    (s.frame = none → s.Settled → s.board.state.outline = {}) ∧
    (∀ c, (c, true) ∈ s.returned → s.frame.isSome = true) ∧
    ∀ k now digester c, (c, false) ∈ (s.step k now digester).returned →
      (c, false) ∈ s.returned ∨
        c.FindsNothing s.board ∧ (s.step k now digester).board = s.board := by
  intro s
  have hview : s.InView := inView_run (inView_start surface interval threads) moves
  refine ⟨fun f hf => ⟨hview.drawn f hf, fun hsettled => ?_⟩, fun hnone hsettled => ?_,
    hview.returned, fun k now digester c => returned_step⟩
  · have hcurrent := hview.current hsettled
    rwa [hf] at hcurrent
  · have hcurrent := hview.current hsettled
    rw [hnone] at hcurrent
    exact hcurrent.symm

/-- On a dashboard without a frame a key without effect leaves it at that. -/
theorem idle_key_composes_no_frame :
    let key : BoardCall := .press (.char 'x')
    let s := (start (Dashboard.fresh (Surface.new 80 24) 0) 1).run
      [.call 0 key, .step 0 0 fun _ _ => .ok ""]
    s.board.live = true ∧ s.returned = [(key, false)] ∧ s.Settled ∧
      ¬ ∃ f, s.frame = some f ∧ f.outline = s.board.state.outline := by
  intro key s
  have hthreads : s.threads = [.free] := rfl
  have hframe : s.frame = none := rfl
  refine ⟨rfl, rfl, ?_, ?_⟩
  · intro stage hstage
    rw [hthreads, List.mem_singleton] at hstage
    rw [hstage]
    rfl
  · rintro ⟨f, hf, -⟩
    rw [hframe] at hf
    exact absurd hf (by simp)

/-- A key takes its effect between the change and the frame of another thread: both changes are
on the screen when both calls have returned. -/
theorem two_changes_are_on_the_screen :
    let s := (start (Dashboard.fresh (Surface.new 80 24) 0) 2).run
      [.call 0 (.create { name := "a" }), .call 1 (.press (.char 'p')),
       .step 0 0 fun _ _ => .ok "", .step 1 1 fun _ _ => .ok "", .others (.redraw false 2),
       .step 1 3 fun _ _ => .ok "", .others (.advance ⟨0, 1⟩ 8 0), .step 0 4 fun _ _ => .ok "",
       .others (.advance ⟨0, 1⟩ 8 0)]
    ∃ f, s.frame = some f ∧ s.board.surface.Shows f ∧ f.outline = s.board.state.outline ∧
      f.controls.paused = true ∧ f.entryCount = 1 := by
  intro s
  obtain ⟨hshows, -, -, -⟩ := screen_shows_the_outline (Surface.new 80 24) 0 2
    [.call 0 (.create { name := "a" }), .call 1 (.press (.char 'p')),
     .step 0 0 fun _ _ => .ok "", .step 1 1 fun _ _ => .ok "", .others (.redraw false 2),
     .step 1 3 fun _ _ => .ok "", .others (.advance ⟨0, 1⟩ 8 0), .step 0 4 fun _ _ => .ok "",
     .others (.advance ⟨0, 1⟩ 8 0)]
  have hthreads : s.threads = [.free, .free] := rfl
  -- both calls have returned, so no frame is owed
  have hsettled : s.Settled := by
    intro stage hstage
    rw [hthreads] at hstage
    simp only [List.mem_cons, List.not_mem_nil, or_false, or_self] at hstage
    rw [hstage]
    rfl
  obtain ⟨f, hf⟩ : ∃ f, s.frame = some f := Option.isSome_iff_exists.mp rfl
  obtain ⟨hshown, hcurrent⟩ := hshows f hf
  refine ⟨f, hf, hshown, hcurrent hsettled, ?_, ?_⟩
  · have : (s.frame.map fun f => f.controls.paused) = some true := rfl
    rw [hf] at this
    exact Option.some.inj this
  · have : (s.frame.map BoardState.entryCount) = some 1 := rfl
    rw [hf] at this
    exact Option.some.inj this

end WatchedBoard
end TransferBoard
