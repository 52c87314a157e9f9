import TransferBoard.Proofs.Board.Alone
import TransferBoard.Proofs.Verify.KeyAnswers
import TransferBoard.Settings.Load

/-!
# The wait after the last transfer

After the last transfer the session draws a frame, puts a line over its last row and waits for a
key.  The end of the wait is calculated once, when the line has been shown; from then on the
session looks at the clock and, while there is time left, for a key.  When there is none it naps
and looks once more, and then it is the clock's turn again.

Keys may be pressed at any time.  One that is pressed between the last look for a key and the
last look at the clock stays where it is, for the questions.

The calculation has no bound: when the end of the wait lies beyond the range of the clock the
program breaks down, although the settings may ask for such a wait.

## Main definitions

* `Session.Answers` — what the wait answers when the keys are known beforehand.
* `SessionStage.Awaits` — the stages of a wait, and its ends.
* `SessionStage.turns` — how many more steps the session takes once time is up.
* `Handover.Waits` — the invariant: which keys there are at a stage of the wait.
* `Handover.WaitStep` — what the session does in a step of its wait.

## Main results

* `waitForCompletion_fst`, `waitForCompletion_of_shown` — what becomes of a wait, whether or not
  it has been shown.
* `overflow_iff_of_shown`, `answers_of_shown` — when it breaks down, and what it answers otherwise.
* `Waits.step`, `waits_after`, `waits_run` — every step is one of these and keeps the invariant.
* `ended_of_unanswered` — a wait without a key ends with a look at the clock.
* `queue_eq_of_unanswered` — and none of its looks for a key has found one.
* `turns_run`, `Waits.exists_answer_run` — when time is up the wait ends.
* `wait_ends_with_a_key_or_in_time` — **what a wait draws, when it breaks down, and what it
  answers.**
-/

namespace TransferBoard

/-! ### What is drawn -/

/-- When showing works, what was drawn is followed by that. -/
theorem Surface.calls_present_of_ok {s : Surface} {calls : List DrawCall}
    (h : (s.present calls).1 = .ok ()) :
    (s.present calls).2.calls = .flush :: (calls.reverse ++ s.calls) := by
  rw [present, flush] at h ⊢
  split at h
  · exact absurd h (by simp)
  · exact congrArg _ (calls_drawAll calls s)

namespace Session

variable {s : Session} {now : Moment}

/-- On a surface that does not fail any more the line can be shown. -/
theorem completionShown_of_showsAll (h : s.board.surface.ShowsAll) (now : Moment) :
    s.completionShown now = .ok () := by
  refine (Surface.ShowsAll.present ?_ _).1
  rw [Dashboard.redraw_eq]
  split
  · exact (h.present _).2
  · exact h

/-- The line is put over the last row of the frame. -/
theorem calls_completionDrawn (hshown : s.completionShown now = .ok ()) :
    let row := (s.board.redraw true now).surface.height - 1
    (s.completionDrawn now).surface.calls =
      [.flush, .put row margin (completionText s.config) .warning, .clear row (row + 1)] ++
        (s.board.redraw true now).surface.calls :=
  Surface.calls_present_of_ok hshown

/-- The frame below it is one that the dashboard composes, unless it has been torn down. -/
theorem calls_redraw_of_live (hlive : s.board.live = true) :
    ∃ ending, (ending = .flush ∨ ending = .flushFailed) ∧
      (s.board.redraw true now).surface.calls =
        ending :: ((Frame.calls (s.board.redraw true now).state s.board.surface.width
          s.board.surface.height now).reverse ++ s.board.surface.calls) := by
  rw [Dashboard.redraw_of_live hlive, Dashboard.surface_compose, Dashboard.state_compose]
  exact Surface.calls_present _ _

theorem height_redraw (board : Dashboard) (forced : Bool) (now : Moment) :
    (board.redraw forced now).surface.height = board.surface.height := by
  rw [Dashboard.redraw_eq]
  split
  · exact (board.size_compose now).2
  · rfl

/-! ### The keys that are there -/

/-- The wait takes the first key there is, unless there is no time. -/
theorem awaitKey_presses (wait : Nat) (keys : List Key) :
    awaitKey wait (keys.map .press) =
      if wait = 0 ∨ keys = [] then (.ok false, keys.map .press)
      else (.ok true, keys.tail.map .press) := by
  rw [awaitKey]
  by_cases hzero : wait = 0
  · rw [if_pos hzero, if_pos (.inl hzero)]
  · rw [if_neg hzero]
    cases keys with
    | nil => exact (if_pos (.inr rfl)).symm
    | cons key rest => exact (if_neg (by simp [hzero])).symm

/-- A session that has stopped its control channel waits as one that is about to. -/
theorem waitForCompletion_of_stopped (hstopped : s.control = .stopped) (now : Moment) :
    s.waitForCompletion now = ({ s with control := .running } : Session).waitForCompletion now := by
  have hstop : ({ s with control := .running } : Session).stopControl = s.stopControl := by
    obtain ⟨board, keys, control, config, closed⟩ := s
    obtain rfl : control = .stopped := hstopped
    rfl
  -- the wait begins with stopping the channel, and looks at nothing of what it did before
  unfold waitForCompletion
  rw [hstop]

/-- A control channel that broke down has not handed back the keys, so there is nothing to wait
for. -/
theorem waitForCompletion_of_broken (hbroken : s.control = .broken)
    (hshown : s.completionShown now = .ok ()) :
    s.waitForCompletion now = (.ok false, { s with board := s.completionDrawn now }) := by
  have hstop : s.stopControl = s := by rw [stopControl, hbroken]
  unfold waitForCompletion completionDrawn
  unfold completionShown at hshown
  simp only [hstop, if_pos hbroken]
  rcases hpresent : (s.board.redraw true now).surface.present
    (completionCalls s.config (s.board.redraw true now).surface.height) with ⟨shown, surface⟩
  obtain rfl : shown = .ok () := (congrArg Prod.fst hpresent).symm.trans hshown
  rfl

/-- **What becomes of a wait that has been shown**, when there are keys to wait for: its end is
calculated, and then the keys decide. -/
theorem waitForCompletion_of_shown (hkeys : s.control ≠ .broken)
    (hshown : s.completionShown now = .ok ()) :
    s.waitForCompletion now =
      if clockEnd ≤ now + s.config.completionWait then
        (.error .clockOverflow, { s with board := s.completionDrawn now, control := .stopped })
      else
        ((awaitKey s.config.completionWait s.keys).1.mapError .terminal,
          { s with
            board := s.completionDrawn now
            control := .stopped
            keys := (awaitKey s.config.completionWait s.keys).2 }) := by
  cases hcontrol : s.control with
  | broken => exact absurd hcontrol hkeys
  | running => rw [waitForCompletion_of_running hcontrol, hshown]
  | stopped =>
    have hshown' : ({ s with control := .running } : Session).completionShown now = .ok () := hshown
    rw [waitForCompletion_of_stopped hcontrol, waitForCompletion_of_running rfl, hshown']
    rfl

theorem board_waitForCompletion (s : Session) (now : Moment) :
    (s.waitForCompletion now).2.board = s.completionDrawn now := by
  obtain ⟨hboard, -, hconfig⟩ := s.stopControl_rest
  obtain ⟨keys, hrest⟩ := s.waitForCompletion_rest now
  rw [hrest]
  show s.stopControl.completionDrawn now = _
  rw [completionDrawn, completionDrawn, hboard, hconfig]

/-- When the keys are known beforehand, the wait takes the first one, unless there is no time. -/
theorem waitForCompletion_of_presses {keys : List Key} (hcontrol : s.control ≠ .broken)
    (hkeys : s.keys = keys.map .press) (hshown : s.completionShown now = .ok ())
    (hclock : now + s.config.completionWait < clockEnd) :
    let drawn : Session := { s with board := s.completionDrawn now, control := .stopped }
    s.waitForCompletion now =
      if s.config.completionWait = 0 ∨ keys = [] then (.ok false, drawn)
      else (.ok true, { drawn with keys := keys.tail.map .press }) := by
  rw [waitForCompletion_of_shown hcontrol hshown, if_neg (Nat.not_le_of_gt hclock), hkeys,
    awaitKey_presses]
  split
  · rw [← hkeys]
    rfl
  · rfl

/-- The wait of a session, whatever has become of its control channel. -/
theorem waitForCompletion_fst (s : Session) (now : Moment) :
    (s.waitForCompletion now).1 =
      match s.completionShown now with
      | .error e => .error (.terminal e)
      | .ok () =>
        if s.control = .broken then .ok false
        else if clockEnd ≤ now + s.config.completionWait then .error .clockOverflow
        else (awaitKey s.config.completionWait s.keys).1.mapError .terminal := by
  -- stopping the channel changes nothing that the answer depends on
  have hstop : s.stopControl.board = s.board ∧ s.stopControl.config = s.config ∧
      s.stopControl.keys = s.keys ∧ (s.stopControl.control = .broken ↔ s.control = .broken) := by
    unfold stopControl
    cases hcontrol : s.control <;> simp [hcontrol]
  obtain ⟨hboard, hconfig, hkeys, hbroken⟩ := hstop
  unfold waitForCompletion completionShown
  simp only [hboard, hconfig, hkeys, hbroken]
  rcases (s.board.redraw true now).surface.present
    (completionCalls s.config (s.board.redraw true now).surface.height) with ⟨shown, surface⟩
  cases shown with
  | error e => rfl
  | ok u =>
    by_cases hbroken : s.control = .broken
    · simp only [if_pos hbroken]
    by_cases hend : clockEnd ≤ now + s.config.completionWait
    · simp only [if_neg hbroken, if_pos hend]
    · simp only [if_neg hbroken, if_neg hend]
      rcases awaitKey s.config.completionWait s.keys with ⟨answer, rest⟩
      cases answer <;> rfl

/-- The wait breaks down when it is shown and would end beyond the range of the clock. -/
theorem waitForCompletion_eq_overflow_iff (s : Session) (now : Moment) :
    (s.waitForCompletion now).1 = .error .clockOverflow ↔
      s.completionShown now = .ok () ∧ s.control ≠ .broken ∧
        clockEnd ≤ now + s.config.completionWait := by
  rw [waitForCompletion_fst]
  cases s.completionShown now with
  | error e => simp
  | ok u =>
    by_cases hbroken : s.control = .broken
    · simp [hbroken]
    · by_cases hend : clockEnd ≤ now + s.config.completionWait
      · simp [hbroken, hend]
      · cases (awaitKey s.config.completionWait s.keys).1 <;>
          simp [hbroken, hend, Except.mapError]

/-- **When a wait that has been shown breaks down**: there are keys to wait for, and its end lies
beyond the range of the clock. -/
theorem overflow_iff_of_shown (hshown : s.completionShown now = .ok ()) :
    (s.waitForCompletion now).1 = .error .clockOverflow ↔
      s.control ≠ .broken ∧ clockEnd ≤ now + s.config.completionWait := by
  rw [waitForCompletion_eq_overflow_iff]
  exact and_iff_right hshown

/-- **What the wait answers** when it does not break down. -/
structure Answers (s s' : Session) (answer : Except SessionError Bool) : Prop where
  /-- There is an answer. -/
  answers : ∃ pressed, answer = .ok pressed
  /-- It is that there was a key just when the first one is gone. -/
  key : answer = .ok true ↔ ∃ key, s.keys = .press key :: s'.keys
  /-- It is that there was none just when there was no source of keys, no time or no key. -/
  noKey : answer = .ok false ↔
    s.control = .broken ∨ s.config.completionWait = 0 ∨ s.keys = []
  /-- Then the keys stay. -/
  keys : answer = .ok false → s'.keys = s.keys

theorem answers_of_shown {keys : List Key} (hkeys : s.keys = keys.map .press)
    (hshown : s.completionShown now = .ok ())
    (hclock : s.control = .broken ∨ now + s.config.completionWait < clockEnd) :
    s.Answers (s.waitForCompletion now).2 (s.waitForCompletion now).1 := by
  -- without a channel there are no keys to wait for
  by_cases hgone : s.control = .broken
  · rw [waitForCompletion_of_broken hgone hshown]
    exact ⟨⟨false, rfl⟩, iff_of_false nofun fun ⟨_, h⟩ => List.cons_ne_self _ _ h.symm,
      iff_of_true rfl (.inl hgone), fun _ => rfl⟩
  rw [waitForCompletion_of_presses hgone hkeys hshown (hclock.resolve_left hgone)]
  dsimp only
  split
  · next hnone =>
    refine ⟨⟨false, rfl⟩, iff_of_false nofun fun ⟨_, h⟩ => List.cons_ne_self _ _ h.symm,
      iff_of_true rfl (.inr ?_), fun _ => rfl⟩
    rw [hkeys, List.map_eq_nil_iff]
    exact hnone
  · -- there is a key, and it is taken at once
    next hsome =>
    obtain ⟨hwait, hne⟩ := not_or.mp hsome
    obtain ⟨key, rest, rfl⟩ := List.exists_cons_of_ne_nil hne
    refine ⟨⟨true, rfl⟩, iff_of_true rfl ⟨key, hkeys⟩, iff_of_false nofun ?_, nofun⟩
    rintro (h | h | h)
    · exact hgone h
    · exact hwait h
    · exact absurd (hkeys.symm.trans h) (List.cons_ne_nil _ _)

end Session

/-! ### The keys that are pressed meanwhile -/

/-- The stages of a wait that ends at the deadline, and its ends. -/
inductive SessionStage.Awaits (deadline : Moment) : SessionStage → Prop
  /-- The session looks at the clock next. -/
  | watching : Awaits deadline (.watching deadline)
  /-- It looks for a key next. -/
  | polling (again : Bool) : Awaits deadline (.polling deadline again)
  /-- The wait is over. -/
  | waited (pressed : Bool) : Awaits deadline (.waited (.ok pressed))

/-- The session looks for a key next. -/
def SessionStage.isPolling : SessionStage → Bool
  | polling _ _ => true
  | _ => false

/-- The steps that the session takes at most, once time is up, until the wait is over. -/
def SessionStage.turns : SessionStage → Nat
  | watching _ => 1
  | polling _ false => 2
  | polling _ true => 3
  | _ => 0

/-- The time at which the session takes its step. -/
def HandoverMove.clock? : HandoverMove → Option Moment
  | session now => some now
  | _ => none

theorem HandoverMove.eq_session {move : HandoverMove} {now : Moment} (h : move.clock? = some now) :
    move = .session now := by
  cases move with
  | session now' => exact congrArg _ (Option.some.inj h)
  | _ => exact absurd h nofun

/-- What is collected from a list starts with what the first one gives. -/
theorem filterMap_cons_toList {α β : Type} (f : α → Option β) (a : α) (l : List α) :
    (a :: l).filterMap f = (f a).toList ++ l.filterMap f := by
  rw [List.filterMap_eq_flatMap_toList, List.flatMap_cons, ← List.filterMap_eq_flatMap_toList]

namespace SessionStage

theorem exists_of_isOver {stage : SessionStage} (h : stage.isOver = true) :
    ∃ answer, stage = .waited answer := by
  cases stage with
  | waited answer => exact ⟨answer, rfl⟩
  | _ => exact absurd h Bool.noConfusion

theorem turns_le (stage : SessionStage) : stage.turns ≤ 3 := by
  unfold turns
  split <;> decide

theorem exists_of_isPolling {stage : SessionStage} (h : stage.isPolling = true) :
    ∃ deadline again, stage = .polling deadline again := by
  cases stage with
  | polling deadline again => exact ⟨deadline, again, rfl⟩
  | _ => exact absurd h Bool.noConfusion

end SessionStage

namespace Handover

/-- The session waits for a key until the deadline; these are the keys there have been for it. -/
structure Waits (deadline : Moment) (queue : List Key) (h : Handover) : Prop where
  /-- The control channel is gone. -/
  loop : h.loop = .gone
  /-- The wait is on, or over. -/
  stage : h.stage.Awaits deadline
  /-- Without the answer that there was a key, none has been taken. -/
  untaken : h.stage.saysKey = false → h.keys = queue
  /-- With that answer, the first one has. -/
  taken : h.stage.saysKey = true → ∃ key, queue = key :: h.keys

variable {h : Handover} {deadline : Moment} {queue : List Key}

theorem waits_start (config : Config) (board : Dashboard) (keys : List Key) (book : KeyBook)
    (deadline : Moment) :
    (atStage config board keys book (.watching deadline)).Waits deadline keys :=
  ⟨rfl, .watching, fun _ => rfl, nofun⟩

/-! ### Steps of the wait -/

/-- What the session does in a step of its wait. -/
inductive WaitStep (deadline now : Moment) (h : Handover) : Handover → Prop
  /-- It looks at the clock, and time is up. -/
  | runsOut (hstage : h.stage = .watching deadline) (hlate : deadline ≤ now) :
    WaitStep deadline now h { h with stage := .waited (.ok false) }
  /-- It looks at the clock, and there is time left. -/
  | goesOn (hstage : h.stage = .watching deadline) (hearly : ¬ deadline ≤ now) :
    WaitStep deadline now h { h with stage := .polling deadline true }
  /-- It looks for a key; there is none, and it looks once more. -/
  | naps (hstage : h.stage = .polling deadline true) (hnone : h.keys = []) :
    WaitStep deadline now h { h with keys := [], stage := .polling deadline false }
  /-- It has looked for a key twice, and there was none. -/
  | givesUp (hstage : h.stage = .polling deadline false) (hnone : h.keys = []) :
    WaitStep deadline now h { h with keys := [], stage := .watching deadline }
  /-- It takes a key. -/
  | takes {again : Bool} {key : Key} {rest : List Key}
    (hstage : h.stage = .polling deadline again) (hkeys : h.keys = key :: rest) :
    WaitStep deadline now h { h with
      keys := rest
      stage := .waited (.ok true)
      book := { h.book with byWait := h.book.byWait ++ [key] } }
  /-- It has its answer. -/
  | rests {pressed : Bool} (hstage : h.stage = .waited (.ok pressed)) : WaitStep deadline now h h

/-- **The steps of the session while it waits.** -/
theorem Waits.step (hw : h.Waits deadline queue) (now : Moment) :
    WaitStep deadline now h (h.after (.session now)) := by
  have hawaits := hw.stage
  rw [after, sessionStep]
  -- the stages of the wait; before it the invariant would not hold
  cases hstage : h.stage with
  | watching d =>
    rw [hstage] at hawaits
    cases hawaits
    dsimp only
    split
    · next hlate => exact .runsOut hstage hlate
    · next hearly => exact .goesOn hstage hearly
  | polling d again =>
    rw [hstage] at hawaits
    cases hawaits
    dsimp only
    cases hkeys : h.keys with
    | cons key rest => exact .takes hstage hkeys
    | nil =>
      cases again with
      | true => exact .naps hstage hkeys
      | false => exact .givesUp hstage hkeys
  | waited answer =>
    rw [hstage] at hawaits
    cases hawaits
    exact .rests hstage
  | _ => rw [hstage] at hawaits; cases hawaits

/-- Whoever takes a step other than the session leaves its stage while it waits, and the keys but
for those that are pressed. -/
theorem Waits.after_other (hw : h.Waits deadline queue) {move : HandoverMove}
    (hmove : move.clock? = none) :
    (h.after move).stage = h.stage ∧ (h.after move).loop = .gone ∧
      (h.after move).keys = h.keys ++ move.pressed?.toList := by
  cases move with
  | press key => exact ⟨rfl, hw.loop, rfl⟩
  | session now => exact absurd hmove (Option.some_ne_none now)
  | produce sec =>
    rw [after]
    split <;> exact ⟨rfl, hw.loop, (List.append_nil _).symm⟩
  | control now =>
    have hgone : h.after (.control now) = h := by rw [after, controlStep, hw.loop]
    rw [hgone]
    exact ⟨rfl, hw.loop, (List.append_nil _).symm⟩
  | stop =>
    -- the session is past the request to stop, so another one does nothing
    have hstopped : h.after .stop = h := by
      have hstage := hw.stage
      rw [after]
      cases hstage' : h.stage with
      | copying => rw [hstage'] at hstage; cases hstage
      | _ => rfl
    rw [hstopped]
    exact ⟨rfl, hw.loop, (List.append_nil _).symm⟩

/-- The session goes on with its wait. -/
theorem Waits.session (hw : h.Waits deadline queue) (now : Moment) :
    (h.after (.session now)).Waits deadline queue := by
  have hqueue : ∀ {stage}, h.stage = stage → stage.saysKey = false → h.keys = queue :=
    fun hstage hsays => hw.untaken (hstage ▸ hsays)
  have hstep := hw.step now
  generalize h.after (.session now) = h' at hstep ⊢
  cases hstep with
  | runsOut hstage => exact ⟨hw.loop, .waited false, fun _ => hqueue hstage rfl, nofun⟩
  | goesOn hstage => exact ⟨hw.loop, .polling true, fun _ => hqueue hstage rfl, nofun⟩
  | naps hstage hnone =>
    exact ⟨hw.loop, .polling false, fun _ => hnone.symm.trans (hqueue hstage rfl), nofun⟩
  | givesUp hstage hnone =>
    exact ⟨hw.loop, .watching, fun _ => hnone.symm.trans (hqueue hstage rfl), nofun⟩
  | takes hstage hkeys =>
    exact ⟨hw.loop, .waited true, nofun, fun _ => ⟨_, (hqueue hstage rfl).symm.trans hkeys⟩⟩
  | rests => exact hw

/-- **Every step keeps the invariant.** -/
theorem waits_after (hw : h.Waits deadline queue) (move : HandoverMove) :
    (h.after move).Waits deadline (queue ++ move.pressed?.toList) := by
  cases hmove : move.clock? with
  | some now =>
    obtain rfl : move = .session now := HandoverMove.eq_session hmove
    have hnone : (HandoverMove.session now).pressed? = none := rfl
    rw [hnone, Option.toList_none, List.append_nil]
    exact hw.session now
  | none =>
    -- a key that is pressed comes last, both in the queue and among those there are
    obtain ⟨hstage, hloop, hkeys⟩ := hw.after_other hmove
    refine ⟨hloop, hstage ▸ hw.stage, fun hsays => ?_, fun hsays => ?_⟩
    · rw [hkeys, hw.untaken (hstage ▸ hsays)]
    · obtain ⟨key, hqueue⟩ := hw.taken (hstage ▸ hsays)
      exact ⟨key, by rw [hkeys, hqueue]; rfl⟩

theorem waits_run (moves : List HandoverMove) : ∀ {h : Handover} {queue : List Key},
    h.Waits deadline queue →
      (h.run moves).Waits deadline (queue ++ moves.filterMap HandoverMove.pressed?) := by
  induction moves with
  | nil =>
    intro h queue hw
    rw [List.filterMap_nil, List.append_nil]
    exact hw
  | cons move moves ih =>
    intro h queue hw
    rw [filterMap_cons_toList, ← List.append_assoc]
    exact ih (waits_after hw move)

/-! ### How the wait ends -/

/-- The answer is that there was a key just when one is gone. -/
theorem Waits.answer_iff (hw : h.Waits deadline queue) :
    h.stage = .waited (.ok true) ↔ ∃ key, queue = key :: h.keys := by
  constructor
  · intro hstage
    exact hw.taken (by rw [hstage]; rfl)
  · rintro ⟨key, hqueue⟩
    cases hsays : h.stage.saysKey with
    | true => exact SessionStage.eq_of_saysKey hsays
    | false => exact absurd (hqueue.symm.trans (hw.untaken hsays).symm) (List.cons_ne_self key _)

/-- The answer stays. -/
theorem stage_run_of_waited (moves : List HandoverMove) : ∀ {h : Handover} {queue : List Key},
    h.Waits deadline queue → ∀ {answer}, h.stage = .waited answer →
      (h.run moves).stage = .waited answer := by
  induction moves with
  | nil => exact fun _ _ hstage => hstage
  | cons move moves ih =>
    intro h queue hw answer hstage
    refine ih (waits_after hw move) ?_
    cases move with
    | session now =>
      rw [after, sessionStep, hstage]
      exact hstage
    | _ => exact (hw.after_other rfl).1.trans hstage

/-- The session says that there was no key when it looks at the clock, and time is up. -/
theorem Waits.in_time (hw : h.Waits deadline queue) (hon : h.stage.isOver = false)
    {move : HandoverMove} (hend : (h.after move).stage = .waited (.ok false)) :
    ∃ now, move = .session now ∧ deadline ≤ now := by
  cases hmove : move.clock? with
  | none =>
    rw [← (hw.after_other hmove).1, hend] at hon
    exact absurd hon Bool.noConfusion
  | some now =>
    obtain rfl : move = .session now := HandoverMove.eq_session hmove
    refine ⟨now, rfl, ?_⟩
    have hstep := hw.step now
    generalize h.after (.session now) = h' at hstep hend
    cases hstep with
    | runsOut _ hlate => exact hlate
    | rests hstage => rw [hstage] at hon; exact absurd hon Bool.noConfusion
    | _ => exact absurd hend nofun

/-- **A wait without a key ends with a look at the clock**, and time is up. -/
theorem ended_of_unanswered (moves : List HandoverMove) : ∀ {h : Handover} {queue : List Key},
    h.Waits deadline queue → h.stage.isOver = false →
    (h.run moves).stage = .waited (.ok false) →
    ∃ before ended after, moves = before ++ .session ended :: after ∧ deadline ≤ ended := by
  induction moves with
  | nil =>
    intro h queue _ hon hend
    rw [show h.run [] = h from rfl] at hend
    rw [hend] at hon
    exact absurd hon Bool.noConfusion
  | cons move moves ih =>
    intro h queue hw hon hend
    have hw' := waits_after hw move
    cases hon' : (h.after move).stage.isOver with
    | false =>
      obtain ⟨before, ended, after, rfl, hended⟩ := ih hw' hon' hend
      exact ⟨move :: before, ended, after, rfl, hended⟩
    | true =>
      -- the answer has just been given, and stays
      obtain ⟨answer, hanswer⟩ := SessionStage.exists_of_isOver hon'
      have hlast : (h.run (move :: moves)).stage = .waited answer :=
        stage_run_of_waited moves hw' hanswer
      rw [← hlast, hend] at hanswer
      obtain ⟨ended, rfl, hended⟩ := hw.in_time hon hanswer
      exact ⟨[], ended, moves, rfl, hended⟩

/-- **None of the looks for a key has found one** when the answer is that there was none, so the
keys have been pressed after each of them. -/
theorem queue_eq_of_unanswered {moves looked rest : List HandoverMove} {now : Moment}
    (hw : h.Waits deadline queue) (hmoves : moves = looked ++ .session now :: rest)
    (hlook : (h.run looked).stage.isPolling = true)
    (hend : (h.run moves).stage = .waited (.ok false)) :
    queue ++ moves.filterMap HandoverMove.pressed? = rest.filterMap HandoverMove.pressed? := by
  have hw' := waits_run looked hw
  obtain ⟨d, again, hstage⟩ := SessionStage.exists_of_isPolling hlook
  have hnone : (h.run looked).keys = [] := by
    cases hkeys : (h.run looked).keys with
    | nil => rfl
    | cons key left =>
      -- this look would have given the other answer, which stays
      have hanswer : ((h.run looked).after (.session now)).stage = .waited (.ok true) := by
        rw [after, sessionStep, hstage]
        dsimp only
        rw [hkeys]
      have hlast := stage_run_of_waited rest (waits_after hw' (.session now)) hanswer
      rw [hmoves, run_append] at hend
      exact absurd (hend.symm.trans hlast) (by simp)
  rw [hmoves, List.filterMap_append, ← List.append_assoc,
    ← hw'.untaken (by rw [hstage]; rfl), hnone]
  rfl

/-- Once time is up every step of the session brings the wait nearer to its end. -/
theorem turns_after (hw : h.Waits deadline queue) {move : HandoverMove}
    (hlate : ∀ now, move.clock? = some now → deadline ≤ now) :
    (h.after move).stage.turns ≤ h.stage.turns - move.clock?.toList.length := by
  cases hmove : move.clock? with
  | none => exact Nat.le_of_eq (congrArg _ (hw.after_other hmove).1)
  | some now =>
    obtain rfl : move = .session now := HandoverMove.eq_session hmove
    have hstep := hw.step now
    generalize h.after (.session now) = h' at hstep ⊢
    cases hstep with
    | goesOn _ hearly => exact absurd (hlate now hmove) hearly
    | naps hstage => rw [hstage]; exact Nat.le_refl 2
    | givesUp hstage => rw [hstage]; exact Nat.le_refl 1
    | rests hstage => rw [hstage]; exact Nat.zero_le _
    | _ => exact Nat.zero_le _

theorem turns_run (moves : List HandoverMove) : ∀ {h : Handover} {queue : List Key},
    h.Waits deadline queue →
    (∀ now ∈ moves.filterMap HandoverMove.clock?, deadline ≤ now) →
    (h.run moves).stage.turns ≤
      h.stage.turns - (moves.filterMap HandoverMove.clock?).length := by
  induction moves with
  | nil => exact fun _ _ => Nat.le_refl _
  | cons move moves ih =>
    intro h queue hw hlate
    rw [filterMap_cons_toList] at hlate ⊢
    have hfirst : (h.after move).stage.turns ≤ h.stage.turns - move.clock?.toList.length :=
      turns_after hw fun now hnow => hlate now (List.mem_append_left _ (Option.mem_toList.mpr hnow))
    have hrest := ih (waits_after hw move) fun now hnow =>
      hlate now (List.mem_append_right _ hnow)
    rw [List.length_append, ← Nat.sub_sub]
    exact Nat.le_trans hrest (Nat.sub_le_sub_right hfirst _)

/-- When no more steps are needed the wait is over. -/
theorem Waits.exists_answer (hw : h.Waits deadline queue) (hturns : h.stage.turns = 0) :
    ∃ pressed, h.stage = .waited (.ok pressed) := by
  have hawaits := hw.stage
  generalize h.stage = stage at hawaits hturns ⊢
  cases hawaits with
  | waited pressed => exact ⟨pressed, rfl⟩
  | watching => exact absurd hturns Nat.noConfusion
  | polling again => cases again <;> exact absurd hturns Nat.noConfusion

/-- **When time is up the wait ends**, after as many steps of the session as its stage needs. -/
theorem Waits.exists_answer_run (hw : h.Waits deadline queue) {later : List HandoverMove}
    (hlate : ∀ t ∈ later.filterMap HandoverMove.clock?, deadline ≤ t)
    (hturns : h.stage.turns ≤ (later.filterMap HandoverMove.clock?).length) :
    ∃ pressed, (h.run later).stage = .waited (.ok pressed) := by
  refine (waits_run later hw).exists_answer (Nat.le_zero.mp ?_)
  rw [← Nat.sub_eq_zero_of_le hturns]
  exact turns_run later hw hlate

theorem run_timing {config : Config} {board : Dashboard} {keys : List Key} {book : KeyBook}
    {now : Moment} (hclock : now + config.completionWait < clockEnd)
    (moves : List HandoverMove) :
    (atStage config board keys book .timing).run (.session now :: moves) =
      (atStage config board keys book (.watching (now + config.completionWait))).run moves :=
  congrArg (fun h : Handover => h.run moves) (if_neg (Nat.not_le_of_gt hclock))

end Handover

/-! ### The wait -/

/-- **The wait after the last transfer.**  Only keys are in the source, and the line can be shown.

* A frame is drawn, unless the dashboard has been torn down, then the line over its last row, and
  no more than that.
* The program breaks down just when there are keys to wait for and the end of the wait lies beyond
  the range of the clock.
* Otherwise there is an answer, and it is that there was a key just when the first one is gone.

While the wait is on, keys are pressed, producers are at work and the session takes its steps at
any times.  At every moment:

* the answer is that there was a key just when the first one is gone;
* the answer that there was none has been given after a look at the clock, when time was up; no
  key is gone, and those there are have been pressed after each of the looks for a key;
* once time is up the wait is over after three steps of the session, and after the first one if
  that looks at the clock. -/
theorem wait_ends_with_a_key_or_in_time (s : Session) (keys : List Key) (now : Moment)
    (hkeys : s.keys = keys.map .press) (hshown : s.completionShown now = .ok ()) :
    let deadline := now + s.config.completionWait
    let answer := (s.waitForCompletion now).1
    let s' := (s.waitForCompletion now).2
    let row := s.board.surface.height - 1
    (s'.board = s.completionDrawn now ∧
      s'.board.surface.calls =
        [.flush, .put row margin (Session.completionText s.config) .warning,
          .clear row (row + 1)] ++ (s.board.redraw true now).surface.calls ∧
      (s.board.live = true → ∃ ending, (ending = .flush ∨ ending = .flushFailed) ∧
        (s.board.redraw true now).surface.calls =
          ending :: ((Frame.calls s'.board.state s.board.surface.width
            s.board.surface.height now).reverse ++ s.board.surface.calls))) ∧
    (answer = .error .clockOverflow ↔ s.control ≠ .broken ∧ clockEnd ≤ deadline) ∧
    (s.control = .broken ∨ deadline < clockEnd → s.Answers s' answer) ∧
    (deadline < clockEnd → ∀ book moves,
      let start := Handover.atStage s.config (s.completionDrawn now) keys book .timing
      let h := start.run (.session now :: moves)
      let queue := keys ++ moves.filterMap HandoverMove.pressed?
      (h.stage = .waited (.ok true) ↔ ∃ key, queue = key :: h.keys) ∧
      (h.stage = .waited (.ok false) →
        (∃ before ended after, moves = before ++ .session ended :: after ∧ deadline ≤ ended) ∧
        h.keys = queue ∧
        ∀ looked t rest, moves = looked ++ .session t :: rest →
          (start.run (.session now :: looked)).stage.isPolling = true →
          queue = rest.filterMap HandoverMove.pressed?) ∧
      h.stage.turns ≤ 3 ∧
      ∀ later, (∀ t ∈ later.filterMap HandoverMove.clock?, deadline ≤ t) →
        h.stage.turns ≤ (later.filterMap HandoverMove.clock?).length →
        ∃ pressed, (h.run later).stage = .waited (.ok pressed)) := by
  intro deadline answer s' row
  have hboard : s'.board = s.completionDrawn now := s.board_waitForCompletion now
  refine ⟨⟨hboard, ?_, ?_⟩, Session.overflow_iff_of_shown hshown,
    Session.answers_of_shown hkeys hshown, ?_⟩
  · rw [hboard, Session.calls_completionDrawn hshown, Session.height_redraw]
  · intro hlive
    have hstate : s'.board.state = (s.board.redraw true now).state := by rw [hboard]; rfl
    rw [hstate]
    exact Session.calls_redraw_of_live hlive
  · intro hclock book moves start h queue
    -- the first step reads the clock, and from then on the deadline is fixed
    have hstart : ∀ moves, start.run (.session now :: moves) =
        (Handover.atStage s.config (s.completionDrawn now) keys book
          (.watching deadline)).run moves := Handover.run_timing hclock
    have hw := Handover.waits_start s.config (s.completionDrawn now) keys book deadline
    have hh : h = _ := hstart moves
    -- what every stage of the wait keeps, and all that is said of its end rests on it
    have hrun : h.Waits deadline queue := hh ▸ Handover.waits_run moves hw
    refine ⟨hrun.answer_iff, fun hend => ⟨?_, ?_, ?_⟩, h.stage.turns_le,
      fun _ => hrun.exists_answer_run⟩
    · exact Handover.ended_of_unanswered moves hw rfl (hh ▸ hend)
    · exact hrun.untaken (by rw [hend]; rfl)
    · intro looked t rest hmoves hlook
      exact Handover.queue_eq_of_unanswered hw hmoves (hstart looked ▸ hlook) (hh ▸ hend)

/-- A wait of one second.  A key that is pressed at once answers it; one that is pressed after the
last look for a key does not, and stays. -/
theorem late_key_stays :
    let s := Session.start { completionWaitSecs := 1 } (.new 70 6) [] 0
    let line := "All transfers finished. Press any key to continue (auto in 1s)"
    let start := Handover.atStage s.config (s.completionDrawn 5) [] { pressed := [] } .timing
    let soon := start.run [.session 5, .session 6, .press (.char 'x'), .session 7]
    let late := start.run [.session 5, .session 6, .session 7, .session 8, .press (.char 'x'),
      .session 1000000005]
    (s.waitForCompletion 5).1 = .ok false ∧
      (s.waitForCompletion 5).2.board.surface.calls.take 3 =
        [.flush, .put 5 2 line .warning, .clear 5 6] ∧
      soon.stage = .waited (.ok true) ∧ soon.keys = [] ∧
      late.stage = .waited (.ok false) ∧ late.keys = [.char 'x'] := by
  intro s line start soon late
  have hshown := Session.completionShown_of_showsAll (s := s) (fun _ _ => rfl) 5
  obtain ⟨⟨-, hcalls, -⟩, -, hanswers, hmoves⟩ :=
    wait_ends_with_a_key_or_in_time s [] 5 rfl hshown
  have hline : Session.completionText s.config = line := by decide +kernel
  have hbottom : s.board.surface.height - 1 = 5 := by decide +kernel
  have hclock : 5 + s.config.completionWait < clockEnd := by decide +kernel
  obtain ⟨hkey, -⟩ := hmoves hclock { pressed := [] }
    [.session 6, .press (.char 'x'), .session 7]
  obtain ⟨hlate, -, -, hover⟩ := hmoves hclock { pressed := [] }
    [.session 6, .session 7, .session 8, .press (.char 'x'), .session 1000000005]
  have hsoon : soon.keys = [] := by decide +kernel
  have hleft : late.keys = [.char 'x'] := by decide +kernel
  have hended : late.stage.turns = 0 := by decide +kernel
  -- the answer is told from the keys that are left, since no key was taken
  obtain ⟨pressed, hstage⟩ := hover [] (fun _ ht => absurd ht List.not_mem_nil)
    (Nat.le_of_eq hended)
  rw [Handover.run, List.foldl_nil] at hstage
  have hnone : pressed = false := by
    cases pressed with
    | false => rfl
    | true =>
      obtain ⟨key, hqueue⟩ := hlate.mp hstage
      have hlength : 1 = [key, Key.char 'x'].length :=
        congrArg List.length (hqueue.trans (congrArg (key :: ·) hleft))
      exact absurd hlength (by simp)
  refine ⟨(hanswers (.inr hclock)).noKey.mpr (.inr (.inr rfl)), ?_, hkey.mpr ⟨.char 'x', ?_⟩,
    hsoon, hnone ▸ hstage, hleft⟩
  · rw [hcalls, hline, hbottom]
    rfl
  · show [Key.char 'x'] = .char 'x' :: soon.keys
    rw [hsoon]

/-- A file of settings may ask for a wait that ends beyond the range of the clock.  There is a
key, and still the program breaks down. -/
theorem longest_wait_breaks_down :
    let path : Path := ⟨"config.toml"⟩
    let text := "completion_wait_secs = 9223372036854775807\n"
    let disk : Disk := ⟨[(["config.toml"], .file text.toUTF8.data)]⟩
    let now := nanosPerSecond
    ∃ config, (Config.load disk path).1 = .ok config ∧
      let s := Session.start config (.new 0 0) [.press (.char 'x')] now
      s.completionShown now = .ok () ∧ (s.waitForCompletion now).1 = .error .clockOverflow := by
  intro path text disk now
  refine ⟨{ completionWaitSecs := 0x7fffffffffffffff }, by decide +kernel, ?_⟩
  intro s
  have hshown : s.completionShown now = .ok () :=
    Session.completionShown_of_showsAll (fun _ _ => rfl) now
  have hend : clockEnd ≤ now + s.config.completionWait := by decide +kernel
  exact ⟨hshown, (Session.overflow_iff_of_shown hshown).mpr ⟨ControlChannel.noConfusion, hend⟩⟩

end TransferBoard
