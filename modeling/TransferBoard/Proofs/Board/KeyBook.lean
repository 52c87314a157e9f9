import TransferBoard.Proofs.Board.Handover

/-!
# The book of the keys

However the steps of the control channel and of the session alternate, the book tells who has
taken which key.

## Main definitions

* `Handover.Sound` — the invariant: the book is right.
* `Handover.Kept` — the session has the keys, and the control channel has taken no more.
* `Handover.Handles` — what was done to the dashboard, with the keys among it.

## Main results

* `sound_after`, `sound_run` — every step keeps the invariant.
* `kept_after`, `kept_run` — once the session has the keys, the control channel takes none.
* `handles_run` — on the dashboard, the keys that took effect are those of the book.
-/

namespace TransferBoard
namespace Handover

/-! ### The book is right -/

/-- The book is right. -/
structure Sound (h : Handover) : Prop where
  /-- Every key is in one place, and in its turn. -/
  all : h.book.byControl ++ h.book.byWait ++ h.book.byQuestions ++ h.keys = h.book.pressed
  /-- What the control channel took has taken its effect, or does so next. -/
  handled : h.book.byControl = h.book.handled ++ h.loop.held
  /-- Who has the keys has them alone. -/
  alone : h.stage.hasKeys = true → h.loop = .gone
  /-- The wait takes one key when it says so, and none before and otherwise. -/
  wait : h.book.byWait.length = if h.stage.saysKey then 1 else 0
  /-- No question is put before the wait is over. -/
  questions : h.stage.isOver = false → h.book.byQuestions = []

variable {h : Handover}

theorem sound_start (config : Config) (board : Dashboard) (keys : List Key) :
    (start config board keys).Sound where
  all := by simp [start]
  handled := rfl
  alone := nofun
  wait := rfl
  questions _ := rfl

/-- Before the end of the wait neither the wait nor a question has taken a key. -/
theorem Sound.untaken (hs : h.Sound) (hover : h.stage.isOver = false) :
    h.book.byWait = [] ∧ h.book.byQuestions = [] := by
  have hkey : h.stage.saysKey = false := by
    cases hstage : h.stage with
    | waited answer => rw [hstage] at hover; exact absurd hover Bool.noConfusion
    | _ => rfl
  have hwait := hs.wait
  rw [hkey] at hwait
  exact ⟨List.length_eq_zero_iff.mp hwait, hs.questions hover⟩

/-- The wait says that there was a key just when it took one. -/
theorem Sound.answer_iff_took (hs : h.Sound) {answer : Except SessionError Bool}
    (hstage : h.stage = .waited answer) : answer = .ok true ↔ h.book.byWait ≠ [] := by
  have hwait := hs.wait
  rw [hstage] at hwait
  cases answer with
  | error e => exact iff_of_false (by simp) fun hne => hne (List.length_eq_zero_iff.mp hwait)
  | ok pressed =>
    cases pressed with
    | true => exact iff_of_true rfl (List.ne_nil_of_length_pos (by rw [hwait]; decide))
    | false => exact iff_of_false (by simp) fun hne => hne (List.length_eq_zero_iff.mp hwait)

/-- The session does not have the keys while the control channel is there. -/
theorem Sound.present (hs : h.Sound) (hloop : h.loop ≠ .gone) :
    h.stage.hasKeys = false ∧ h.stage.isOver = false := by
  have hkeys : h.stage.hasKeys = false :=
    Bool.eq_false_iff.mpr fun hkeys => hloop (hs.alone hkeys)
  refine ⟨hkeys, ?_⟩
  cases hstage : h.stage with
  | waited answer => rw [hstage] at hkeys; exact absurd hkeys Bool.noConfusion
  | _ => rfl

/-! ### The control channel -/

/-- The control channel goes on without a key. -/
theorem Sound.goOn (hs : h.Sound) (hloop : h.loop ≠ .gone) (board : Dashboard) {loop : LoopStage}
    (hheld : loop.held = h.loop.held) : Sound { h with board := board, loop := loop } where
  all := hs.all
  handled := by
    show h.book.byControl = h.book.handled ++ loop.held
    rw [hheld]
    exact hs.handled
  alone hkeys := absurd (hkeys.symm.trans (hs.present hloop).1) Bool.noConfusion
  wait := hs.wait
  questions := hs.questions

/-- The control channel takes a key. -/
theorem Sound.take (hs : h.Sound) (hloop : h.loop = .polling) {key : Key} {rest : List Key}
    (hqueue : h.keys = key :: rest) :
    Sound { h with
      keys := rest
      loop := .holding key
      book := { h.book with byControl := h.book.byControl ++ [key] } } := by
  have hpresent := hs.present (by rw [hloop]; exact LoopStage.noConfusion)
  -- nobody else has taken a key yet, so the key is the next one of the book
  obtain ⟨hwait, hquestions⟩ := hs.untaken hpresent.2
  have hall := hs.all
  have hhandled := hs.handled
  rw [hwait, hquestions, hqueue] at hall
  rw [hloop, LoopStage.held, List.append_nil] at hhandled
  · refine ⟨?_, ?_, fun hkeys => ?_, hs.wait, hs.questions⟩
    · show h.book.byControl ++ [key] ++ h.book.byWait ++ h.book.byQuestions ++ rest = _
      rw [hwait, hquestions, ← hall]
      simp
    · show h.book.byControl ++ [key] = h.book.handled ++ [key]
      rw [hhandled]
    · exact absurd (hkeys.symm.trans hpresent.1) Bool.noConfusion
  · exact nofun

/-- The key that the control channel holds takes its effect. -/
theorem Sound.handle (hs : h.Sound) {key : Key} (hloop : h.loop = .holding key)
    (board : Dashboard) {loop : LoopStage} (hheld : loop.held = []) :
    Sound { h with
      board := board
      loop := loop
      book := { h.book with handled := h.book.handled ++ [key] } } := by
  have hpresent := hs.present (by rw [hloop]; exact LoopStage.noConfusion)
  have hhandled := hs.handled
  rw [hloop, LoopStage.held] at hhandled
  refine ⟨hs.all, ?_, fun hkeys => ?_, hs.wait, hs.questions⟩
  · show h.book.byControl = h.book.handled ++ [key] ++ loop.held
    rw [hheld, List.append_nil]
    exact hhandled
  · exact absurd (hkeys.symm.trans hpresent.1) Bool.noConfusion

theorem sound_controlStep (hs : h.Sound) (now : Moment) : (h.controlStep now).Sound := by
  unfold controlStep
  split
  · next hloop =>
    refine hs.goOn (by rw [hloop]; exact LoopStage.noConfusion) h.board ?_
    rw [hloop]
    split <;> rfl
  · next hloop =>
    split
    · exact hs.goOn (by rw [hloop]; exact LoopStage.noConfusion) h.board (by rw [hloop]; rfl)
    · next key rest hqueue => exact hs.take hloop hqueue
  · next key hloop => exact hs.handle hloop _ (by split <;> rfl)
  · next hloop =>
    exact hs.goOn (by rw [hloop]; exact LoopStage.noConfusion) _ (by rw [hloop]; rfl)
  · next hloop =>
    exact hs.goOn (by rw [hloop]; exact LoopStage.noConfusion) h.board (by rw [hloop]; rfl)
  · exact hs

/-! ### The session -/

/-- The session goes on without a key. -/
theorem Sound.proceed (hs : h.Sound) (hover : h.stage.isOver = false) (board : Dashboard)
    {running : Bool} {stage : SessionStage} (hkey : stage.saysKey = false)
    (halone : stage.hasKeys = true → h.loop = .gone) :
    Sound { h with board := board, running := running, stage := stage } := by
  obtain ⟨hwait, hquestions⟩ := hs.untaken hover
  refine ⟨hs.all, hs.handled, halone, ?_, fun _ => hquestions⟩
  show h.book.byWait.length = if stage.saysKey = true then 1 else 0
  rw [hkey, hwait]
  rfl

/-- The wait ends with a key. -/
theorem Sound.waitEnds (hs : h.Sound) (hover : h.stage.isOver = false)
    (hgone : h.loop = .gone) {key : Key} {rest : List Key} (hqueue : h.keys = key :: rest) :
    Sound { h with
      keys := rest
      stage := .waited (.ok true)
      book := { h.book with byWait := h.book.byWait ++ [key] } } := by
  obtain ⟨hwait, hquestions⟩ := hs.untaken hover
  have hall := hs.all
  rw [hwait, hquestions, hqueue] at hall
  refine ⟨?_, hs.handled, fun _ => hgone, ?_, nofun⟩
  · show h.book.byControl ++ (h.book.byWait ++ [key]) ++ h.book.byQuestions ++ rest = _
    rw [hwait, hquestions, ← hall]
    simp
  · show (h.book.byWait ++ [key]).length = 1
    rw [hwait]
    rfl

theorem sound_sessionStep (hs : h.Sound) (now : Moment) : (h.sessionStep now).Sound := by
  unfold sessionStep
  split
  · -- the session waits for the channel to be gone, and from then on it is the only one
    next hstage =>
    split
    · next hgone => exact hs.proceed (by rw [hstage]; rfl) h.board rfl fun _ => hgone
    · exact hs
  · next hstage =>
    have hgone := hs.alone (by rw [hstage]; rfl)
    exact hs.proceed (by rw [hstage]; rfl) _ rfl fun _ => hgone
  · next hstage =>
    have hgone := hs.alone (by rw [hstage]; rfl)
    split
    · exact hs.proceed (by rw [hstage]; rfl) _ rfl fun _ => hgone
    · exact hs.proceed (by rw [hstage]; rfl) _ rfl fun _ => hgone
  · next hstage =>
    have hgone := hs.alone (by rw [hstage]; rfl)
    split
    · exact hs.proceed (by rw [hstage]; rfl) _ rfl fun _ => hgone
    · exact hs.proceed (by rw [hstage]; rfl) _ rfl fun _ => hgone
  · next deadline hstage =>
    have hgone := hs.alone (by rw [hstage]; rfl)
    split
    · exact hs.proceed (by rw [hstage]; rfl) _ rfl fun _ => hgone
    · exact hs.proceed (by rw [hstage]; rfl) _ rfl fun _ => hgone
  · -- the one step of the wait that takes a key
    next deadline again hstage =>
    have hgone := hs.alone (by rw [hstage]; rfl)
    split
    · refine hs.proceed (by rw [hstage]; rfl) _ ?_ fun _ => hgone
      split <;> rfl
    · next key rest hqueue => exact hs.waitEnds (by rw [hstage]; rfl) hgone hqueue
  · exact hs
  · exact hs

/-! ### Every step -/

/-- A key that is pressed is the last one to come. -/
theorem Sound.press (hs : h.Sound) (key : Key) : (h.after (.press key)).Sound where
  all := by
    show h.book.byControl ++ h.book.byWait ++ h.book.byQuestions ++ (h.keys ++ [key]) = _
    rw [← List.append_assoc, hs.all]
    rfl
  handled := hs.handled
  alone := hs.alone
  wait := hs.wait
  questions := hs.questions

/-- **Every step keeps the book right.** -/
theorem sound_after (hs : h.Sound) (move : HandoverMove) : (h.after move).Sound := by
  cases move with
  | press key => exact hs.press key
  | produce sec =>
    rw [after]
    split
    · exact hs
    · exact ⟨hs.all, hs.handled, hs.alone, hs.wait, hs.questions⟩
  | control now => exact sound_controlStep hs now
  | stop =>
    rw [after]
    split
    · next hstage => exact hs.proceed (by rw [hstage]; rfl) h.board rfl nofun
    · exact hs
  | session now => exact sound_sessionStep hs now

theorem sound_run (moves : List HandoverMove) :
    ∀ {h : Handover}, h.Sound → (h.run moves).Sound := by
  induction moves with
  | nil => exact fun hs => hs
  | cons move moves ih => exact fun hs => ih (sound_after hs move)

/-! ### What a step leaves -/

theorem rest_controlStep (h : Handover) (now : Moment) :
    (h.controlStep now).book.pressed = h.book.pressed ∧
      (h.controlStep now).book.byQuestions = h.book.byQuestions := by
  unfold controlStep
  split <;> try exact ⟨rfl, rfl⟩
  split <;> exact ⟨rfl, rfl⟩

theorem rest_sessionStep (h : Handover) (now : Moment) :
    (h.sessionStep now).book.pressed = h.book.pressed ∧
      (h.sessionStep now).book.byQuestions = h.book.byQuestions := by
  unfold sessionStep
  split <;> try exact ⟨rfl, rfl⟩
  all_goals split <;> exact ⟨rfl, rfl⟩

theorem rest_after (h : Handover) (move : HandoverMove) :
    (h.after move).book.pressed = h.book.pressed ++ move.pressed?.toList ∧
      (h.after move).book.byQuestions = h.book.byQuestions := by
  cases move with
  | press key => exact ⟨rfl, rfl⟩
  | produce sec => rw [after]; split <;> exact ⟨(List.append_nil _).symm, rfl⟩
  | control now =>
    obtain ⟨hpressed, hquestions⟩ := h.rest_controlStep now
    exact ⟨hpressed.trans (List.append_nil _).symm, hquestions⟩
  | stop => rw [after]; split <;> exact ⟨(List.append_nil _).symm, rfl⟩
  | session now =>
    obtain ⟨hpressed, hquestions⟩ := h.rest_sessionStep now
    exact ⟨hpressed.trans (List.append_nil _).symm, hquestions⟩

/-- The keys that are pressed are entered, and no question takes any. -/
theorem rest_run (moves : List HandoverMove) : ∀ h : Handover,
    (h.run moves).book.pressed = h.book.pressed ++ moves.filterMap HandoverMove.pressed? ∧
      (h.run moves).book.byQuestions = h.book.byQuestions := by
  induction moves with
  | nil => exact fun h => ⟨(List.append_nil _).symm, rfl⟩
  | cons move moves ih =>
    intro h
    obtain ⟨hpressed, hquestions⟩ := h.rest_after move
    obtain ⟨hpressed', hquestions'⟩ := ih (h.after move)
    refine ⟨hpressed'.trans ?_, hquestions'.trans hquestions⟩
    rw [hpressed, List.append_assoc]
    cases move <;> rfl

/-- The session has the keys, and the control channel has taken as many as it had. -/
structure Kept (h h' : Handover) : Prop where
  /-- The session has the keys. -/
  hasKeys : h'.stage.hasKeys = true
  /-- What the control channel took. -/
  byControl : h'.book.byControl = h.book.byControl
  /-- What took its effect. -/
  handled : h'.book.handled = h.book.handled

theorem kept_sessionStep (hkeys : h.stage.hasKeys = true) (now : Moment) :
    h.Kept (h.sessionStep now) := by
  unfold sessionStep
  split
  · next hstage => exact absurd hkeys (by rw [hstage]; exact Bool.noConfusion)
  · exact ⟨rfl, rfl, rfl⟩
  · split <;> exact ⟨rfl, rfl, rfl⟩
  · split <;> exact ⟨rfl, rfl, rfl⟩
  · split <;> exact ⟨rfl, rfl, rfl⟩
  · split
    · refine ⟨?_, rfl, rfl⟩
      split <;> rfl
    · exact ⟨rfl, rfl, rfl⟩
  · exact ⟨hkeys, rfl, rfl⟩
  · exact ⟨hkeys, rfl, rfl⟩

/-- **Once the session has the keys, the control channel takes none.** -/
theorem kept_after (hs : h.Sound) (hkeys : h.stage.hasKeys = true) (move : HandoverMove) :
    h.Kept (h.after move) := by
  cases move with
  | press key => exact ⟨hkeys, rfl, rfl⟩
  | produce sec => rw [after]; split <;> exact ⟨hkeys, rfl, rfl⟩
  | control now =>
    rw [after, controlStep, hs.alone hkeys]
    exact ⟨hkeys, rfl, rfl⟩
  | stop =>
    rw [after]
    split
    · next hstage => exact absurd hkeys (by rw [hstage]; exact Bool.noConfusion)
    · exact ⟨hkeys, rfl, rfl⟩
  | session now => exact kept_sessionStep hkeys now

theorem kept_run (moves : List HandoverMove) : ∀ {h : Handover}, h.Sound →
    h.stage.hasKeys = true → h.Kept (h.run moves) := by
  induction moves with
  | nil => exact fun _ hkeys => ⟨hkeys, rfl, rfl⟩
  | cons move moves ih =>
    intro h hs hkeys
    have hfirst := kept_after hs hkeys move
    have hrest := ih (sound_after hs move) hfirst.hasKeys
    exact ⟨hrest.hasKeys, hrest.byControl.trans hfirst.byControl,
      hrest.handled.trans hfirst.handled⟩

/-! ### The dashboard -/

/-- What is done to the state of the dashboard, with the keys that take their effect on it. -/
structure Handles (h h' : Handover) (actions : List BoardAction) : Prop where
  /-- What is done to the state. -/
  state : h'.board.state = h.board.state.run actions
  /-- The keys among it. -/
  handled : h'.book.handled = h.book.handled ++ actions.filterMap BoardAction.key?

theorem handles_nothing {h' : Handover} (hstate : h'.board.state = h.board.state)
    (hhandled : h'.book.handled = h.book.handled) : ∃ actions, h.Handles h' actions :=
  ⟨[], hstate, hhandled.trans (List.append_nil _).symm⟩

/-- A section of which the book has the keys. -/
theorem handles_section (h : Handover) (sec : BoardSection) {h' : Handover}
    (hboard : h'.board.state = (h.board.after sec).state)
    (hhandled : h'.book.handled = h.book.handled ++ sec.keys) :
    ∃ actions, h.Handles h' actions := by
  obtain ⟨actions, hstate, hkeys⟩ := Dashboard.state_after_keys h.board sec
  exact ⟨actions, hboard.trans hstate, by rw [hkeys, hhandled]⟩

theorem handles_controlStep (h : Handover) (now : Moment) :
    ∃ actions, h.Handles (h.controlStep now) actions := by
  unfold controlStep
  split
  · exact handles_nothing rfl rfl
  · split <;> exact handles_nothing rfl rfl
  · next key hloop => exact h.handles_section (.applyKey key) rfl rfl
  · exact h.handles_section (.redraw true now) rfl (List.append_nil _).symm
  · exact handles_nothing rfl rfl
  · exact handles_nothing rfl rfl

theorem handles_sessionStep (h : Handover) (now : Moment) :
    ∃ actions, h.Handles (h.sessionStep now) actions := by
  unfold sessionStep
  split
  · split <;> exact handles_nothing rfl rfl
  · exact h.handles_section (.redraw true now) rfl (List.append_nil _).symm
  · split <;> exact handles_nothing rfl rfl
  · split <;> exact handles_nothing rfl rfl
  · split <;> exact handles_nothing rfl rfl
  · split <;> exact handles_nothing rfl rfl
  · exact handles_nothing rfl rfl
  · exact handles_nothing rfl rfl

theorem handles_after (h : Handover) (move : HandoverMove) :
    ∃ actions, h.Handles (h.after move) actions := by
  cases move with
  | press key => exact handles_nothing rfl rfl
  | produce sec =>
    rw [after]
    split
    · exact handles_nothing rfl rfl
    · next hflags =>
      refine h.handles_section sec rfl ?_
      cases sec with
      | applyKey key => exact absurd rfl hflags
      | _ => exact (List.append_nil _).symm
  | control now => exact h.handles_controlStep now
  | stop => rw [after]; split <;> exact handles_nothing rfl rfl
  | session now => exact h.handles_sessionStep now

/-- **On the dashboard, the keys that took effect are those of the book**, in their order. -/
theorem handles_run (moves : List HandoverMove) :
    ∀ h : Handover, ∃ actions, h.Handles (h.run moves) actions := by
  induction moves with
  | nil => exact fun h => handles_nothing rfl rfl
  | cons move moves ih =>
    intro h
    obtain ⟨actions, hfirst⟩ := h.handles_after move
    obtain ⟨actions', hrest⟩ := ih (h.after move)
    refine ⟨actions ++ actions', ?_, ?_⟩
    · rw [BoardState.run_append, ← hfirst.state]
      exact hrest.state
    · rw [List.filterMap_append, ← List.append_assoc, ← hfirst.handled]
      exact hrest.handled

end Handover
end TransferBoard
