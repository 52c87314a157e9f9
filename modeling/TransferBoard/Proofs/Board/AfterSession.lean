import TransferBoard.Proofs.Board.Releases
import TransferBoard.Proofs.Board.Waiting

/-!
# After the end of a session

Producers keep using the dashboard after the session has been closed and the terminal has been
given back.  Nothing of what they do reaches the terminal, nothing makes them wait, and no
handle of before finds an entry of after.

A session goes through what producers do to its dashboard, what the control channel does with
the keys, what is drawn over the dashboard, the wait at the end and the questions about the
completed files, in any order.  Questions that others interrupt are panels drawn over the
dashboard, with the sections of the others in between.

## Main definitions

* `SessionMove`, `Session.after`, `Session.run` — what happens while a session is on.
* `Dashboard.Continues` — one dashboard comes after another one, without a teardown.
* `DrawCall.onSurface` — a call made by someone who draws over the dashboard.
* `releasesOf history` — the number of times that someone who draws over the dashboard gives the
  terminal back.

## Main results

* `continues_move`, `continues_run` — a session does not end by itself, and the terminal is
  given back only by those who draw over the dashboard.
* `sameScreen_of_closed`, `sameScreen_run_of_closed` — what is done to a dashboard that has been
  torn down leaves the screen.
* `awake_after`, `awake_run` — when the end was asked for nobody goes to sleep.
* `closed_session_leaves_the_terminal` — what holds after the end, whatever producers do.
-/

namespace TransferBoard

/-- What happens while a session is on. -/
inductive SessionMove where
  /-- A producer does something to the dashboard. -/
  | produce (sec : BoardSection)
  /-- The control channel looks for a key. -/
  | control (now : Moment)
  /-- Someone draws over the dashboard. -/
  | overlay (calls : List DrawCall)
  /-- The session waits for a key after the last transfer. -/
  | wait (now : Moment)
  /-- The completed files are asked about. -/
  | verify (digester : Digester)

/-- A call on the surface. -/
def DrawCall.onSurface (s : Surface) : DrawCall → Surface
  | .flush | .flushFailed => s.flush.2
  | .release => s.release.2
  | call => s.draw call

namespace Session

/-- What happens while a session is on.  Only its end tears the dashboard down. -/
def after (s : Session) : SessionMove → Session
  | .produce .teardown => s
  | .produce sec => { s with board := s.board.after sec }
  | .control now => s.controlTick now
  | .overlay calls =>
    { s with board := { s.board with surface := calls.foldl DrawCall.onSurface s.board.surface } }
  | .wait now => (s.waitForCompletion now).2
  | .verify digester => (s.verify digester).2

/-- All that happens while a session is on. -/
def run (s : Session) (history : List SessionMove) : Session := history.foldl after s

theorem run_append (s : Session) (history history' : List SessionMove) :
    s.run (history ++ history') = (s.run history).run history' := List.foldl_append

end Session

/-- The number of times that a move gives the terminal back by itself. -/
def SessionMove.releases : SessionMove → Nat
  | .overlay calls => calls.count .release
  | _ => 0

/-- The number of times that someone who draws over the dashboard gives the terminal back. -/
def releasesOf (history : List SessionMove) : Nat := (history.map SessionMove.releases).sum

/-! ### While the session is on -/

theorem Surface.releases_foldl (calls : List DrawCall) :
    ∀ s : Surface,
      (calls.foldl DrawCall.onSurface s).releases = s.releases + calls.count .release := by
  induction calls with
  | nil => exact fun _ => rfl
  | cons call calls ih =>
    intro s
    have hcall : (call.onSurface s).releases = s.releases + [call].count .release := by
      cases call with
      | flush =>
        rw [DrawCall.onSurface, flush]
        split <;> exact List.count_cons_of_ne DrawCall.noConfusion
      | flushFailed =>
        rw [DrawCall.onSurface, flush]
        split <;> exact List.count_cons_of_ne DrawCall.noConfusion
      | release =>
        rw [DrawCall.onSurface, release]
        split <;> exact List.count_cons_self
      | _ => exact List.count_cons_of_ne DrawCall.noConfusion
    rw [List.foldl_cons, ih, hcall, Nat.add_assoc, ← List.count_append]
    rfl

namespace Dashboard

/-- The one dashboard comes after the other one, without a teardown, and the terminal has been
given back so many times in between. -/
structure Continues (d : Dashboard) (n : Nat) (d' : Dashboard) : Prop where
  /-- Frames are drawn as before. -/
  live : d'.live = d.live
  /-- What has been done to the state. -/
  state : ∃ actions, d'.state = d.state.run actions
  /-- What has been done to the terminal. -/
  releases : d'.surface.releases = d.surface.releases + n

theorem Continues.refl (d : Dashboard) : d.Continues 0 d := ⟨rfl, ⟨[], rfl⟩, rfl⟩

theorem Continues.trans {d d' d'' : Dashboard} {n n' : Nat} (h : d.Continues n d')
    (h' : d'.Continues n' d'') : d.Continues (n + n') d'' := by
  obtain ⟨actions, hstate⟩ := h.state
  obtain ⟨actions', hstate'⟩ := h'.state
  refine ⟨h'.live.trans h.live, ⟨actions ++ actions', ?_⟩, ?_⟩
  · rw [hstate', hstate, BoardState.run_append]
  · rw [h'.releases, h.releases, Nat.add_assoc]

/-- A section other than the teardown does not give the terminal back. -/
theorem continues_after (d : Dashboard) {sec : BoardSection} (h : sec ≠ .teardown) :
    d.Continues 0 (d.after sec) := by
  refine ⟨live_after h, state_after d sec, ?_⟩
  cases sec with
  | redraw forced now => exact d.releases_redraw forced now
  | teardown => exact absurd rfl h
  | _ => rfl

theorem continues_pressKey (d : Dashboard) (key : Key) (now : Moment) :
    d.Continues 0 (d.pressKey key now).2 := by
  have hkey : d.Continues 0 (d.after (.applyKey key)) := d.continues_after BoardSection.noConfusion
  rw [pressKey_eq_run, run_cons]
  split
  · have hframe : (d.after (.applyKey key)).Continues 0
        ((d.after (.applyKey key)).after (.redraw true now)) :=
      continues_after _ BoardSection.noConfusion
    exact hkey.trans hframe
  · exact hkey

/-- Who changes nothing but the surface leaves the rest. -/
theorem continues_surface (d : Dashboard) {surface : Surface} {n : Nat}
    (h : surface.releases = d.surface.releases + n) :
    d.Continues n { d with surface := surface } := ⟨rfl, ⟨[], rfl⟩, h⟩

end Dashboard

namespace Session

theorem stopControl_rest (s : Session) :
    s.stopControl.board = s.board ∧ s.stopControl.closed = s.closed ∧
      s.stopControl.config = s.config := by
  rw [stopControl]
  split <;> exact ⟨rfl, rfl, rfl⟩

theorem continues_controlTick (s : Session) (now : Moment) :
    s.board.Continues 0 (s.controlTick now).board ∧ (s.controlTick now).closed = s.closed := by
  rw [controlTick]
  split
  · exact ⟨s.board.continues_pressKey _ now, rfl⟩
  · exact ⟨.refl _, rfl⟩
  · exact ⟨.refl _, rfl⟩
  · exact ⟨.refl _, rfl⟩

/-- What the wait at the end draws: a frame, and a line over it. -/
def completionDrawn (s : Session) (now : Moment) : Dashboard :=
  let board := s.board.redraw true now
  { board with
    surface := (board.surface.present (completionCalls s.config board.surface.height)).2 }

/-- Whatever comes of the wait at the end, it leaves the session with what it has drawn. -/
theorem waitForCompletion_rest (s : Session) (now : Moment) :
    ∃ keys, (s.waitForCompletion now).2 =
      { s.stopControl with board := s.stopControl.completionDrawn now, keys := keys } := by
  unfold waitForCompletion
  extract_lets s' board
  split
  next shown surface hshown =>
  extract_lets s''
  have hlast : ∀ keys, { s'' with keys := keys } =
      { s' with board := s'.completionDrawn now, keys := keys } := by
    intro keys
    rw [completionDrawn, hshown]
  split
  · exact ⟨s'.keys, hlast _⟩
  split
  · exact ⟨s'.keys, hlast _⟩
  split
  · exact ⟨s'.keys, hlast _⟩
  split
  · exact ⟨_, hlast _⟩
  · exact ⟨_, hlast _⟩

theorem continues_completionDrawn (s : Session) (now : Moment) :
    s.board.Continues 0 (s.completionDrawn now) := by
  have hframe : s.board.Continues 0 (s.board.after (.redraw true now)) :=
    s.board.continues_after BoardSection.noConfusion
  have hline : .release ∉ completionCalls s.config (s.board.redraw true now).surface.height := by
    simp [completionCalls]
  exact hframe.trans ((s.board.redraw true now).continues_surface (n := 0)
    ((s.board.redraw true now).surface.releases_present_of_notMem hline))

/-- The questions about the completed files are drawn over the dashboard. -/
theorem continues_verify (s : Session) (digester : Digester) :
    s.board.Continues 0 (s.verify digester).2.board ∧ (s.verify digester).2.closed = s.closed := by
  obtain ⟨hboard, hclosed, -⟩ := s.stopControl_rest
  have hasked : Preserves (PromptScreen.Released s.board.surface.releases)
      (workflow terminalPrompter digester.hashing s.board.state.completed.files) :=
    preserves_workflow PromptScreen.preserves_terminalPrompter (fun _ _ _ hs => hs) _
  unfold verify
  simp only [hboard]
  split
  · exact ⟨hboard ▸ .refl _, hclosed⟩
  · have hreleases := hasked { surface := s.board.surface, keys := s.stopControl.keys } rfl
    unfold runWorkflow
    split <;> exact ⟨s.board.continues_surface (n := 0) hreleases, hclosed⟩

/-- **A session does not end by itself**, and the terminal is given back only by those who draw
over the dashboard. -/
theorem continues_move (s : Session) (move : SessionMove) :
    s.board.Continues move.releases (s.after move).board ∧ (s.after move).closed = s.closed := by
  cases move with
  | produce sec =>
    by_cases hsec : sec = .teardown
    · subst hsec
      exact ⟨.refl _, rfl⟩
    · have hafter : s.after (.produce sec) = { s with board := s.board.after sec } := by
        cases sec <;> first | rfl | exact absurd rfl hsec
      rw [hafter]
      exact ⟨s.board.continues_after hsec, rfl⟩
  | control now => exact s.continues_controlTick now
  | overlay calls =>
    exact ⟨s.board.continues_surface (Surface.releases_foldl calls s.board.surface), rfl⟩
  | wait now =>
    obtain ⟨hboard, hclosed, -⟩ := s.stopControl_rest
    obtain ⟨keys, hrest⟩ := s.waitForCompletion_rest now
    rw [after, hrest]
    exact ⟨hboard ▸ s.stopControl.continues_completionDrawn now, hclosed⟩
  | verify digester => exact s.continues_verify digester

theorem continues_run (history : List SessionMove) :
    ∀ s : Session, s.board.Continues (releasesOf history) (s.run history).board ∧
      (s.run history).closed = s.closed := by
  induction history with
  | nil => exact fun s => ⟨.refl _, rfl⟩
  | cons move history ih =>
    intro s
    obtain ⟨hfirst, hclosed⟩ := s.continues_move move
    obtain ⟨hrest, hclosed'⟩ := ih (s.after move)
    exact ⟨hfirst.trans hrest, hclosed'.trans hclosed⟩

/-- The end of a session tears its dashboard down, once. -/
theorem close_spec {s : Session} (hopen : s.closed = false) :
    s.close.board = s.board.teardown ∧ s.close.close = s.close := by
  have hclose : s.close = { s.stopControl with
      closed := true, board := s.stopControl.board.teardown } := by
    rw [close, hopen]
    rfl
  refine ⟨?_, ?_⟩
  · rw [hclose, s.stopControl_rest.1]
  · rw [hclose]
    rfl

end Session

/-! ### After the end -/

namespace Dashboard

/-- **What is done to a dashboard that has been torn down leaves the screen.** -/
theorem sameScreen_of_closed {d : Dashboard} (h : d.live = false) (sec : BoardSection) :
    d.SameScreen (d.after sec) := by
  cases sec with
  | redraw forced now =>
    rw [after, redraw_of_not_live h]
    exact ⟨rfl, rfl, rfl⟩
  | teardown =>
    have hgone : d.teardown = d := by
      rw [teardown, h]
      rfl
    rw [after, hgone]
    exact ⟨rfl, rfl, rfl⟩
  | _ => exact ⟨rfl, rfl, rfl⟩

theorem sameScreen_run_of_closed (sections : List BoardSection) :
    ∀ {d : Dashboard}, d.live = false → d.SameScreen (d.run sections) := by
  induction sections with
  | nil => exact fun _ => ⟨rfl, rfl, rfl⟩
  | cons sec rest ih =>
    intro d h
    obtain ⟨hlive, hsurface, hlast⟩ := sameScreen_of_closed h sec
    obtain ⟨hlive', hsurface', hlast'⟩ := ih (hlive.trans h)
    exact ⟨hlive'.trans hlive, hsurface'.trans hsurface, hlast'.trans hlast⟩

theorem live_teardown (d : Dashboard) : d.teardown.live = false := by
  rw [teardown]
  split
  · rfl
  · next hlive => simpa using hlive

/-- The teardown gives the terminal back, whether or not that works, and does nothing else to
it. -/
theorem calls_teardown {d : Dashboard} (hlive : d.live = true) :
    d.teardown.surface.calls = .release :: d.surface.calls := by
  have hgone : d.teardown.surface = d.surface.release.2 := by
    rw [teardown, hlive]
    rfl
  rw [hgone, Surface.release]
  split <;> rfl

theorem isCancelled_teardown {d : Dashboard} (hlive : d.live = true) :
    d.teardown.isCancelled = true := by
  rw [teardown, hlive]
  rfl

/-- The teardown forgets the entries, and every number that was given out stays given out. -/
theorem finds_none_of_teardown {d : Dashboard} (hlive : d.live = true) {h : Handle}
    (hgiven : h.generation ≤ d.state.allocations) (sections : List BoardSection) :
    entry? (d.teardown.run sections) h = none := by
  obtain ⟨actions, hstate⟩ := state_run sections d.teardown
  have hforgotten : d.teardown.state = { d.state.clear with controls := Controls.cancel {} } := by
    rw [teardown, hlive]
    rfl
  unfold entry?
  rw [hstate, hforgotten]
  exact BoardState.finds_none_run actions hgiven rfl

end Dashboard

namespace SharedBoard

/-- Whatever the threads do, the dashboard goes through sections. -/
theorem board_after (s : SharedBoard) (move : ThreadMove) :
    ∃ sections, (s.after move).board = s.board.run sections := by
  cases move with
  | step k now =>
    -- a key, the teardown and a frame are sections; looking, sleeping and waking are none
    rw [after, step]
    split
    · split <;> exact ⟨[], rfl⟩
    · next key _ => exact ⟨[.applyKey key], rfl⟩
    · exact ⟨[.teardown], rfl⟩
    · exact ⟨[], rfl⟩
    · exact ⟨[.redraw true now], rfl⟩
    · exact ⟨[], rfl⟩
  | call k c =>
    rw [after]
    split
    · split <;> exact ⟨[], rfl⟩
    · exact ⟨[], rfl⟩
  | rouse k =>
    rw [after]
    split <;> exact ⟨[], rfl⟩
  | produce sec =>
    rw [after]
    split
    · exact ⟨[], rfl⟩
    · exact ⟨[sec], rfl⟩

theorem board_run (moves : List ThreadMove) :
    ∀ s : SharedBoard, ∃ sections, (s.run moves).board = s.board.run sections := by
  induction moves with
  | nil => exact fun s => ⟨[], rfl⟩
  | cons move moves ih =>
    intro s
    obtain ⟨sections, hfirst⟩ := s.board_after move
    obtain ⟨sections', hrest⟩ := ih (s.after move)
    exact ⟨sections ++ sections', by rw [Dashboard.run_append, ← hfirst]; exact hrest⟩

/-- A thread that goes on, but not to sleep, leaves all awake. -/
theorem awake_set {threads : List ThreadStage} (h : .asleep ∉ threads) (k : Nat)
    {stage : ThreadStage} (hstage : stage ≠ .asleep) : .asleep ∉ threads.set k stage := by
  intro hmem
  rcases List.mem_or_eq_of_mem_set hmem with hmem | heq
  · exact h hmem
  · exact hstage heq.symm

/-- **When the end was asked for nobody goes to sleep.** -/
theorem awake_after {s : SharedBoard} (hend : s.board.isCancelled = true)
    (h : .asleep ∉ s.threads) (move : ThreadMove) : .asleep ∉ (s.after move).threads := by
  -- whoever asks is told of the end, and is never sent to sleep
  have htold := Dashboard.flow?_eq_cancelled_iff.mpr hend
  cases move with
  | step k now =>
    rw [after, step]
    split
    · split
      · -- only a thread that is told to wait would go to sleep
        next hnone => exact absurd (htold.symm.trans hnone) (by simp)
      · exact awake_set h k ThreadStage.noConfusion
    · exact awake_set h k (by split <;> exact ThreadStage.noConfusion)
    · exact awake_set h k ThreadStage.noConfusion
    · exact awake_set (notMem_woken s.threads) k (by split <;> exact ThreadStage.noConfusion)
    · exact awake_set h k ThreadStage.noConfusion
    · exact h
  | call k c =>
    rw [after]
    split
    · split
      · exact awake_set h k (by cases c <;> exact ThreadStage.noConfusion)
      · exact h
    · exact h
  | rouse k =>
    rw [after]
    split
    · exact awake_set h k ThreadStage.noConfusion
    · exact h
  | produce sec =>
    rw [after]
    split <;> exact h

theorem awake_run (moves : List ThreadMove) :
    ∀ {s : SharedBoard}, s.board.isCancelled = true → .asleep ∉ s.threads →
      .asleep ∉ (s.run moves).threads := by
  induction moves with
  | nil => exact fun _ h => h
  | cons move moves ih =>
    intro s hend h
    obtain ⟨sections, hboard⟩ := s.board_after move
    exact ih (hboard ▸ Dashboard.isCancelled_run hend sections) (awake_after hend h move)

end SharedBoard

/-- **A session that has been closed leaves the terminal alone.**  Any session is closed after
any history; then any number of threads go on to use its dashboard, in any order of their
sections.  At every moment:

* nothing has been put, cleared or shown since the terminal was given back;
* over the whole life of the session the terminal has been given back once more than by those
  who drew over the dashboard: by the end of the session, whether or not that worked.  Who
  closes the session again does nothing;
* the dashboard is not active, and the end is asked for;
* nobody sleeps, and a thread that waits is told at once to end;
* no handle that was given out before the end finds anything. -/
theorem closed_session_leaves_the_terminal (config : Config) (surface : Surface)
    (keys : List KeyEvent) (now : Moment) (history : List SessionMove) (threads : Nat)
    (moves : List ThreadMove) :
    let s := (Session.start config surface keys now).run history
    let final := (SharedBoard.start s.close.board threads).run moves
    final.board.surface = s.close.board.surface ∧
    (s.close.board.surface.calls = .release :: s.board.surface.calls ∧
      final.board.surface.releases = surface.releases + releasesOf history + 1 ∧
      s.close.close = s.close) ∧
    (final.board.isActive = false ∧ final.board.isCancelled = true) ∧
    (.asleep ∉ final.threads ∧ ∀ k later, final.threads[k]? = some .looking →
      (final.step k later).threads[k]? = some (.told .cancelled)) ∧
    ∀ before r given rest, history = before ++ .produce (.track r given) :: rest →
      let d := ((Session.start config surface keys now).run before).board
      final.board.entry? (d.track r given).1 = none := by
  intro s final
  obtain ⟨hhistory, hopen⟩ := Session.continues_run history (Session.start config surface keys now)
  have hlive : s.board.live = true := hhistory.live
  obtain ⟨hboard, hagain⟩ := Session.close_spec (s := s) hopen
  have hclosed := s.board.live_teardown
  obtain ⟨sections, hfinal⟩ := SharedBoard.board_run moves (SharedBoard.start s.close.board threads)
  have hrun : final.board = s.board.teardown.run sections := by
    rw [hfinal, SharedBoard.start, hboard]
  obtain ⟨hlive', hsurface, -⟩ := Dashboard.sameScreen_run_of_closed sections hclosed
  have hend := Dashboard.isCancelled_teardown hlive
  have hstart : (Session.start config surface keys now).board.surface.releases =
      surface.releases :=
    (Dashboard.fresh surface config.redrawInterval).releases_redraw true now
  refine ⟨?_, ⟨?_, ?_, hagain⟩, ⟨?_, ?_⟩, ⟨?_, ?_⟩, ?_⟩
  · rw [hrun, hboard, hsurface]
  · rw [hboard, Dashboard.calls_teardown hlive]
  · rw [hrun, hsurface, Surface.releases, Dashboard.calls_teardown hlive, List.count_cons_self,
      ← hstart, ← hhistory.releases]
    rfl
  · rw [hrun, Dashboard.isActive, hlive', hclosed]
    rfl
  · rw [hrun]
    exact Dashboard.isCancelled_run hend sections
  · refine SharedBoard.awake_run moves (hboard ▸ hend) ?_
    exact fun hmem => absurd (List.eq_of_mem_replicate hmem) ThreadStage.noConfusion
  · intro k later hk
    have htold : final.board.flow? = some .cancelled := by
      rw [Dashboard.flow?_eq_cancelled_iff, hrun]
      exact Dashboard.isCancelled_run hend sections
    obtain ⟨hlt, -⟩ := List.getElem?_eq_some_iff.mp hk
    rw [SharedBoard.step, hk]
    simp only [htold]
    exact List.getElem?_set_self hlt
  · intro before r given rest hsplit d
    -- the handle has been given out before the end
    obtain ⟨actions, hstate⟩ := (Session.continues_run rest
      (((Session.start config surface keys now).run before).after
        (.produce (.track r given)))).1.state
    have hlast : s = (((Session.start config surface keys now).run before).after
        (.produce (.track r given))).run rest := by
      show Session.run _ history = _
      rw [hsplit, Session.run_append]
      rfl
    rw [hrun]
    refine Dashboard.finds_none_of_teardown hlive ?_ sections
    rw [hlast, hstate]
    exact Nat.le_trans (d.generation_track_le r given)
      (BoardState.allocations_le_run actions (d.track r given).2.state)

/-- A transfer that is announced after the end takes the slot of one of before, whose handle finds
nothing; the surface fails to be given back, and is left alone all the same. -/
theorem late_transfer_leaves_the_terminal :
    let surface : Surface := { Surface.new 80 24 with releaseFault := some .notFound }
    let history : List SessionMove :=
      [.produce (.track { name := "a" } 0), .overlay [.put 0 0 "?" .plain, .flush], .wait 1]
    let s := (Session.start {} surface [.press (.char 'p')] 0).run history
    let final := (SharedBoard.start s.close.board 1).run
      [.produce (.track { name := "b" } 2), .call 0 .wait, .step 0 3, .produce (.redraw true 3)]
    (final.board.entry? ⟨0, 2⟩).isSome = true ∧ final.board.entry? ⟨0, 1⟩ = none ∧
      final.board.surface = s.close.board.surface ∧ final.board.surface.releases = 1 := by
  obtain ⟨hsurface, ⟨-, hreleases, -⟩, -, -, hnone⟩ :=
    closed_session_leaves_the_terminal {}
      { Surface.new 80 24 with releaseFault := some .notFound } [.press (.char 'p')] 0
      [.produce (.track { name := "a" } 0), .overlay [.put 0 0 "?" .plain, .flush], .wait 1] 1
      [.produce (.track { name := "b" } 2), .call 0 .wait, .step 0 3, .produce (.redraw true 3)]
  -- the entry of the first transfer was given away before the session was closed
  have hhandle : ((Session.start {} { Surface.new 80 24 with releaseFault := some .notFound }
      [.press (.char 'p')] 0).board.track { name := "a" } 0).1 = ⟨0, 1⟩ := rfl
  refine ⟨by decide +kernel, ?_, hsurface, hreleases.trans rfl⟩
  rw [← hhandle]
  exact hnone [] { name := "a" } 0 _ rfl

end TransferBoard
